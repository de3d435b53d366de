import ContractBuild.Version.Release

/-! Requirements on releases, such as `>=0.4.7, <0.5.9`: comparators that a release has to meet one
and all. -/
namespace ContractBuild

/-- How a comparator compares. -/
inductive Comparison where
  | exact
  | greater
  | greaterEq
  | less
  | lessEq
  /-- The same numbers but for a later patch. -/
  | tilde
  /-- Nothing before and nothing incompatible: the first number that is not zero is the same. -/
  | caret
  /-- The same numbers, the ones left open being anything. -/
  | wildcard
  deriving DecidableEq

namespace Comparison

/-- The mark written before the numbers. -/
def mark : Comparison → String
  | exact => "="
  | greater => ">"
  | greaterEq => ">="
  | less => "<"
  | lessEq => "<="
  | tilde => "~"
  | caret => "^"
  | wildcard => ""

end Comparison

/-- One comparison with a release whose last numbers may be left open. -/
structure Comparator where
  comparison : Comparison
  major : Nat
  minor : Option Nat
  patch : Option Nat
  /-- The name of a version before the release, empty for the release itself. -/
  preRelease : String
  deriving DecidableEq

namespace Comparator

/-- The comparator as it is shown. -/
def text (c : Comparator) : String :=
  let number (n : Nat) : String := String.ofList (Text.decimal n)
  let tail :=
    match c.minor, c.patch with
    | some minor, some patch =>
      "." ++ number minor ++ "." ++ number patch ++
        (if c.preRelease = "" then "" else "-" ++ c.preRelease)
    | some minor, none => "." ++ number minor ++ (if c.comparison = .wildcard then ".*" else "")
    | none, _ => if c.comparison = .wildcard then ".*" else ""
  c.comparison.mark ++ number c.major ++ tail

/-- The numbers given are those of the release. -/
def matchesExact (c : Comparator) (r : Release) : Bool :=
  r.major = c.major && c.minor.all (r.minor = ·) && c.patch.all (r.patch = ·) && c.preRelease = ""

/-- The release comes after every release with the numbers given. -/
def matchesGreater (c : Comparator) (r : Release) : Bool :=
  if r.major ≠ c.major then r.major > c.major
  else
    match c.minor with
    | none => false
    | some minor =>
      if r.minor ≠ minor then r.minor > minor
      else
        match c.patch with
        | none => false
        | some patch => if r.patch ≠ patch then r.patch > patch else c.preRelease ≠ ""

/-- The release comes before every release with the numbers given. -/
def matchesLess (c : Comparator) (r : Release) : Bool :=
  if r.major ≠ c.major then r.major < c.major
  else
    match c.minor with
    | none => false
    | some minor =>
      if r.minor ≠ minor then r.minor < minor
      else
        match c.patch with
        | none => false
        | some patch => r.patch < patch

/-- The release has the numbers given, or a later patch. -/
def matchesTilde (c : Comparator) (r : Release) : Bool :=
  r.major = c.major && c.minor.all (r.minor = ·) && c.patch.all (· ≤ r.patch)

/-- The release does not come before the numbers given and is compatible with them. -/
def matchesCaret (c : Comparator) (r : Release) : Bool :=
  r.major = c.major &&
    match c.minor, c.patch with
    | none, _ => true
    | some minor, none => if c.major > 0 then r.minor ≥ minor else r.minor = minor
    | some minor, some patch =>
      if c.major > 0 then r.minor > minor || (r.minor = minor && r.patch ≥ patch)
      else if minor > 0 then r.minor = minor && r.patch ≥ patch
      else r.minor = minor && r.patch = patch

/-- Whether a release meets the comparator. A release comes after every version that is named as one
before it. -/
def matchesRelease (c : Comparator) (r : Release) : Bool :=
  match c.comparison with
  | .exact | .wildcard => c.matchesExact r
  | .greater => c.matchesGreater r
  | .greaterEq => c.matchesExact r || c.matchesGreater r
  | .less => c.matchesLess r
  | .lessEq => c.matchesExact r || c.matchesLess r
  | .tilde => c.matchesTilde r
  | .caret => c.matchesCaret r

end Comparator

/-- Comparators that have to be met together; without any, every release will do. -/
structure Requirement where
  comparators : List Comparator
  deriving DecidableEq

namespace Requirement

/-- The requirement as it is shown. -/
def text (requirement : Requirement) : String :=
  match requirement.comparators with
  | [] => "*"
  | comparators => ", ".intercalate (comparators.map Comparator.text)

/-- Whether a release meets the requirement. -/
def matchesRelease (requirement : Requirement) (release : Release) : Bool :=
  requirement.comparators.all fun c => c.matchesRelease release

end Requirement

end ContractBuild
