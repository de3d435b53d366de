import ContractBuild.Text.Basic
import ContractBuild.Text.Decimal

/-! Releases of a compiler: three numbers, read off the start of the version text that it
reports. -/
namespace ContractBuild

/-- A release; the numbers are below `2 ^ 64`. -/
structure Release where
  major : Nat
  minor : Nat
  patch : Nat
  deriving DecidableEq

namespace Release

/-- One more than the largest number in a release. -/
def bound : Nat := Nat.pow 2 64

/-- The release as three numbers with dots between. -/
def text (release : Release) : String :=
  String.ofList (Text.join ['.'] ([release.major, release.minor, release.patch].map Text.decimal))

/-- The release that a version text starts with, blanks and the letter `v` before it left out. What
follows the third number may be anything. -/
def ofVersion? (version : String) : Option Release :=
  let trimmed := Text.trim version.toList
  let bare := match trimmed with
    | 'v' :: rest => rest
    | text => text
  let run := bare.takeWhile fun c => Text.isDigit c || c == '.'
  match Text.split (· == '.') run with
  | major :: minor :: patch :: _ => do
    let major ← Text.decimalBelow? bound major
    let minor ← Text.decimalBelow? bound minor
    let patch ← Text.decimalBelow? bound patch
    return ⟨major, minor, patch⟩
  | _ => none

end Release

/-- Whether two version texts name the same release. Texts that name none have to be equal. -/
def sameCompiler (a b : String) : Bool :=
  match Release.ofVersion? a, Release.ofVersion? b with
  | some x, some y => x = y
  | _, _ => a = b

end ContractBuild
