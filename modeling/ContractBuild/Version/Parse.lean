import ContractBuild.Text.Hex
import ContractBuild.Text.Printable
import ContractBuild.Version.Requirement

/-! Reading requirements. Only the space separates; it may stand before and after each comparator
and after its mark. -/
namespace ContractBuild

/-- The part of a comparator that was read last. -/
inductive VersionPart where
  | major
  | minor
  | patch
  | preRelease
  | build
  deriving DecidableEq

namespace VersionPart

/-- The part as messages name it. -/
def text : VersionPart → String
  | major => "major version number"
  | minor => "minor version number"
  | patch => "patch version number"
  | preRelease => "pre-release identifier"
  | build => "build metadata"

end VersionPart

/-- Why a text is no requirement. -/
inductive RequirementError where
  | unexpectedEnd (part : VersionPart)
  | unexpectedChar (part : VersionPart) (c : Char)
  | leadingZero (part : VersionPart)
  | overflow (part : VersionPart)
  | emptySegment (part : VersionPart)
  | expectedComma (part : VersionPart) (c : Char)
  | afterWildcard
  | wildcardNotAlone (c : Char)
  | tooManyComparators
  deriving DecidableEq

namespace RequirementError

/-- A character between single quotes, as messages show it. -/
def quotedChar (c : Char) : String :=
  let inside := match c with
    | '\x00' => "\\0"
    | '\t' => "\\t"
    | '\n' => "\\n"
    | '\r' => "\\r"
    | '\'' => "\\'"
    | '\\' => "\\\\"
    | c =>
      if Text.isPrintable c then String.ofList [c]
      else "\\u\x7b" ++ String.ofList ((Nat.toDigits 16 c.toNat)) ++ "\x7d"
  "'" ++ inside ++ "'"

/-- The error as it is shown. -/
def message : RequirementError → String
  | unexpectedEnd part => s!"unexpected end of input while parsing {part.text}"
  | unexpectedChar part c => s!"unexpected character {quotedChar c} while parsing {part.text}"
  | leadingZero part => s!"invalid leading zero in {part.text}"
  | overflow part => s!"value of {part.text} exceeds u64::MAX"
  | emptySegment part => s!"empty identifier segment in {part.text}"
  | expectedComma part c => s!"expected comma after {part.text}, found {quotedChar c}"
  | afterWildcard => "unexpected character after wildcard in version req"
  | wildcardNotAlone c =>
    s!"wildcard req ({String.ofList [c]}) must be the only comparator in the version req"
  | tooManyComparators => "excessive number of version comparators"

end RequirementError

namespace Requirement

/-- A text without the spaces at its start. -/
def skipSpaces (text : List Char) : List Char := text.dropWhile (· == ' ')

/-- The mark of a comparator, if one is written, and what follows it. -/
def readMark : List Char → Option Comparison × List Char
  | '=' :: rest => (some .exact, rest)
  | '>' :: '=' :: rest => (some .greaterEq, rest)
  | '>' :: rest => (some .greater, rest)
  | '<' :: '=' :: rest => (some .lessEq, rest)
  | '<' :: rest => (some .less, rest)
  | '~' :: rest => (some .tilde, rest)
  | '^' :: rest => (some .caret, rest)
  | text => (none, text)

/-- Whether a character leaves a number open. -/
def isWildcard (c : Char) : Bool := c == '*' || c == 'x' || c == 'X'

/-- The number that digits from some digit on make with those before it. A zero stands alone. -/
def readDigits (part : VersionPart) (n : Nat) :
    List Char → Except RequirementError (Nat × List Char)
  | [] => .ok (n, [])
  | c :: rest =>
    if Text.isDigit c then
      if n = 0 then .error (.leadingZero part)
      else
        let next := 10 * n + Text.digitValue c
        if next < Release.bound then readDigits part next rest else .error (.overflow part)
    else .ok (n, c :: rest)

/-- A number at the start of a text, and what follows it. -/
def readNumber (part : VersionPart) : List Char → Except RequirementError (Nat × List Char)
  | [] => .error (.unexpectedEnd part)
  | c :: rest =>
    if Text.isDigit c then readDigits part (Text.digitValue c) rest
    else .error (.unexpectedChar part c)

/-- A number after a dot, or a sign that leaves it open, and what follows. Without a dot the number
is left open too. The flag says whether a sign was there. -/
def readPart (part : VersionPart) (open_ : Bool) :
    List Char → Except RequirementError (Option Nat × Bool × List Char)
  | '.' :: c :: rest =>
    if isWildcard c then .ok (none, true, rest)
    else if open_ then .error .afterWildcard
    else (readNumber part (c :: rest)).map fun (n, rest) => (some n, false, rest)
  | ['.'] => if open_ then .error .afterWildcard else .error (.unexpectedEnd part)
  | text => .ok (none, false, text)

/-- Whether a character belongs to an identifier. -/
def isIdentifierChar (c : Char) : Bool := c.isAlphanum || c == '-'

/-- What is wrong with the segment of an identifier, if anything is. -/
def segmentFault? (part : VersionPart) (segment : List Char) : Option RequirementError :=
  if segment = [] then some (.emptySegment part)
  else if part = .preRelease ∧ segment.all Text.isDigit ∧ 1 < segment.length ∧
      segment.head? = some '0' then
    some (.leadingZero part)
  else none

/-- Segments with dots between at the start of a text, and what follows them. -/
def readIdentifier (part : VersionPart) (text : List Char) :
    Except RequirementError (String × List Char) :=
  let inside (c : Char) := isIdentifierChar c || c == '.'
  let identifier := text.takeWhile inside
  match (Text.split (· == '.') identifier).findSome? (segmentFault? part) with
  | some fault => .error fault
  | none => .ok (String.ofList identifier, text.dropWhile inside)

/-- A comparator at the start of a text, the part that it ends with, and what follows it. -/
def readComparator (text : List Char) :
    Except RequirementError (Comparator × VersionPart × List Char) := do
  let (mark, text) := readMark text
  let (major, text) ← readNumber .major (skipSpaces text)
  let dotted := text.head? == some '.'
  let (minor, minorOpen, text) ← readPart .minor false text
  let part := if dotted then VersionPart.minor else .major
  let dottedAgain := text.head? == some '.'
  let (patch, patchOpen, text) ← readPart .patch minorOpen text
  let part := if dottedAgain then VersionPart.patch else part
  let (preRelease, part, text) ← match patch, text with
    | some _, '-' :: rest => do
      let (name, rest) ← readIdentifier .preRelease rest
      pure (name, VersionPart.preRelease, rest)
    | _, text => pure ("", part, text)
  let (part, text) ← match patch, text with
    | some _, '+' :: rest => do
      let (_, rest) ← readIdentifier .build rest
      pure (VersionPart.build, rest)
    | _, text => pure (part, text)
  let comparison := match mark with
    | some comparison => comparison
    | none => if minorOpen || patchOpen then .wildcard else .caret
  return (⟨comparison, major, minor, patch, preRelease⟩, part, skipSpaces text)

/-- Comparators that a requirement may have. -/
def maxComparators : Nat := 32

/-- Comparators with commas between, of which `allowed` more may come. -/
def readComparators : (allowed : Nat) → List Char → Except RequirementError (List Comparator)
  | 0, _ => .error .tooManyComparators
  | allowed + 1, text =>
    match readComparator text with
    | .error error =>
      match text with
      | c :: rest =>
        let beyond := skipSpaces rest
        if isWildcard c ∧ (beyond = [] ∨ beyond.head? = some ',') then .error (.wildcardNotAlone c)
        else .error error
      | [] => .error error
    | .ok (comparator, _, []) => .ok [comparator]
    | .ok (comparator, part, c :: rest) =>
      if c = ',' then
        (readComparators allowed (skipSpaces rest)).map fun comparators => comparator :: comparators
      else .error (.expectedComma part c)

/-- The requirement that a text writes. A lone sign that leaves everything open is met by every
release. -/
def parse (text : String) : Except RequirementError Requirement :=
  match skipSpaces text.toList with
  | [] => (readComparators maxComparators []).map Requirement.mk
  | c :: rest =>
    if isWildcard c then
      match skipSpaces rest with
      | [] => .ok ⟨[]⟩
      | ',' :: _ => .error (.wildcardNotAlone c)
      | _ => .error .afterWildcard
    else (readComparators maxComparators (c :: rest)).map Requirement.mk

end Requirement

end ContractBuild
