import ContractBuild.Bytecode.Trailer
import ContractBuild.Version.Parse

/-! Which part of compiled code is metadata. The length of the trailer depends on the release of the
compiler; the first rule that the release meets decides. If the release is not known, or meets no
rule, the code itself says how long its trailer is. -/
namespace ContractBuild

/-- A rule as a project states it: releases, and the length of their trailers in hexadecimal
digits. -/
structure StripSetting where
  versions : String
  hexLength : Nat
  deriving DecidableEq

/-- A rule: compilers that meet the requirement end code with a trailer of this length. -/
structure StripRule where
  requirement : Requirement
  hexLength : Nat
  deriving DecidableEq

/-- The rule that a setting states, if its requirement can be read. -/
def StripSetting.rule? (setting : StripSetting) : Option StripRule :=
  (Requirement.parse setting.versions).toOption.map fun requirement =>
    ⟨requirement, setting.hexLength⟩

/-- Rules in the order in which they are tried. -/
structure StripPolicy where
  rules : List StripRule
  deriving DecidableEq

namespace StripPolicy

/-- A comparison with a release all of whose numbers are given. -/
def compare (comparison : Comparison) (major minor patch : Nat) : Comparator :=
  ⟨comparison, major, some minor, some patch, ""⟩

/-- The rules that hold for every project. Each release meets exactly one of them. -/
def builtIn : List StripRule :=
  [⟨⟨[compare .less 0 4 7]⟩, 0⟩,
   ⟨⟨[compare .greaterEq 0 4 7, compare .less 0 5 9]⟩, 86⟩,
   ⟨⟨[compare .greaterEq 0 5 9, compare .less 0 6 0]⟩, 104⟩,
   ⟨⟨[compare .greaterEq 0 6 0]⟩, 106⟩]

/-- The policy of a project that states no rules. -/
def default : StripPolicy := ⟨builtIn⟩

instance : Inhabited StripPolicy := ⟨default⟩

/-- The policy of a project: its own rules before the others. -/
def ofSettings (settings : List StripSetting) : StripPolicy :=
  ⟨settings.filterMap StripSetting.rule? ++ builtIn⟩

/-- The length that the first rule met by a release gives. -/
def lengthFor? (policy : StripPolicy) (release : Release) : Option Nat :=
  (policy.rules.find? fun rule => rule.requirement.matchesRelease release).map StripRule.hexLength

/-- The length of the trailer of code from a compiler of a known or unknown release. -/
def stripLength (policy : StripPolicy) (release : Option Release) (code : List Char) : Nat :=
  (release.bind policy.lengthFor?).getD (Bytecode.trailerLength code)

/-- Code without its trailer. -/
def strip (policy : StripPolicy) (release : Option Release) (code : List Char) : List Char :=
  Bytecode.dropEnd (policy.stripLength release code) code

end StripPolicy

end ContractBuild
