import ContractBuild.Project.ConfigText
import ContractBuild.Proofs.StrippedCode
import Mathlib.Algebra.Group.Nat.Even
import Mathlib.Data.List.Forall2

/-! Rules of a configuration that is accepted are all used. None is passed over, they go before the
built-in ones in the order of the file, and of the built-in ones there is one for each release. So the
first rule that a release meets tells how much is removed, and that is always a number of whole bytes of
code. -/
namespace ContractBuild.HonouredRules
open Bytecode StrippedCode
open PathWalk (byte_length_append)

section Settings
variable {config : Config} {setting : StripSetting} {settings : List StripSetting}

/-- A rule is what a setting states. -/
structure States (setting : StripSetting) (rule : StripRule) : Prop where
  requirement : Requirement.parse setting.versions = .ok rule.requirement
  length : rule.hexLength = setting.hexLength

theorem rule_of_sound (sound : Config.settingFault? setting = none) :
    ∃ rule, setting.rule? = some rule ∧ States setting rule ∧ Even rule.hexLength := by
  unfold Config.settingFault? at sound
  split at sound
  · cases sound
  · rename_i requirement read
    split at sound
    · rename_i even
      refine ⟨⟨requirement, setting.hexLength⟩, ?_, ⟨read, rfl⟩, Nat.even_iff.mpr even⟩
      rw [StripSetting.rule?, read]
      rfl
    · cases sound

/-- Settings without fault each become a rule, in their order. -/
theorem rules_of_sound (sound : ∀ setting ∈ settings, Config.settingFault? setting = none) :
    List.Forall₂ States settings (settings.filterMap StripSetting.rule?) ∧
      ∀ rule ∈ settings.filterMap StripSetting.rule?, Even rule.hexLength := by
  induction settings with
  | nil => simp
  | cons setting settings ih =>
    rw [List.forall_mem_cons] at sound
    obtain ⟨rule, made, states, even⟩ := rule_of_sound sound.1
    obtain ⟨rest, evens⟩ := ih sound.2
    rw [List.filterMap_cons_some made]
    exact ⟨.cons states rest, List.forall_mem_cons.mpr ⟨even, evens⟩⟩

/-- A configuration that is accepted has no setting with a fault. -/
theorem settings_sound (accepted : config.fault? = none) :
    ∀ setting ∈ config.strip, Config.settingFault? setting = none := by
  unfold Config.fault? at accepted
  split at accepted
  · cases accepted
  · split at accepted
    · cases accepted
    · split at accepted
      · cases accepted
      · exact List.findSome?_eq_none_iff.mp (Option.or_eq_none_iff.mp accepted).2

end Settings

section BuiltIn

/-- A release comes before another. -/
def Before (first second : Release) : Prop :=
  first.major < second.major ∨ first.major = second.major ∧
    (first.minor < second.minor ∨ first.minor = second.minor ∧ first.patch < second.patch)

theorem matches_less (release : Release) (major minor patch : Nat) :
    (StripPolicy.compare .less major minor patch).matchesRelease release = true ↔
      Before release ⟨major, minor, patch⟩ := by
  have matched : (StripPolicy.compare .less major minor patch).matchesRelease release =
      if release.major ≠ major then decide (release.major < major)
      else if release.minor ≠ minor then decide (release.minor < minor)
      else decide (release.patch < patch) := rfl
  rw [matched, Before]
  by_cases level : release.major = major
  · by_cases level' : release.minor = minor
    · simp [level, level']
    · simp [level, level']
  · simp [level]

theorem matches_greater_eq (release : Release) (major minor patch : Nat) :
    (StripPolicy.compare .greaterEq major minor patch).matchesRelease release = true ↔
      ¬ Before release ⟨major, minor, patch⟩ := by
  have matched : (StripPolicy.compare .greaterEq major minor patch).matchesRelease release =
      ((release.major = major && release.minor = minor && release.patch = patch && true) ||
        if release.major ≠ major then decide (release.major > major)
        else if release.minor ≠ minor then decide (release.minor > minor)
        else if release.patch ≠ patch then decide (release.patch > patch)
        else false) := rfl
  rw [matched, Before]
  by_cases level : release.major = major
  · by_cases level' : release.minor = minor
    · by_cases level'' : release.patch = patch
      · simp [level, level', level'']
      · simp [level, level', level'']
        omega
    · simp [level, level']
      omega
  · simp [level]
    omega

/-- The releases that meet a built-in rule. -/
theorem built_in_met (release : Release) {rule : StripRule} (among : rule ∈ StripPolicy.builtIn) :
    rule.requirement.matchesRelease release = true ↔
      rule = StripPolicy.builtIn[0] ∧ Before release ⟨0, 4, 7⟩ ∨
      rule = StripPolicy.builtIn[1] ∧ ¬ Before release ⟨0, 4, 7⟩ ∧ Before release ⟨0, 5, 9⟩ ∨
      rule = StripPolicy.builtIn[2] ∧ ¬ Before release ⟨0, 5, 9⟩ ∧ Before release ⟨0, 6, 0⟩ ∨
      rule = StripPolicy.builtIn[3] ∧ ¬ Before release ⟨0, 6, 0⟩ := by
  simp only [StripPolicy.builtIn, List.mem_cons, List.not_mem_nil, or_false] at among
  rcases among with rfl | rfl | rfl | rfl <;>
    simp [StripPolicy.builtIn, Requirement.matchesRelease, matches_less, matches_greater_eq]

/-- The built-in rules cover every release, and no two of them the same one. -/
theorem one_built_in (release : Release) :
    ∃! rule, rule ∈ StripPolicy.builtIn ∧ rule.requirement.matchesRelease release = true := by
  have later : Before release ⟨0, 4, 7⟩ → Before release ⟨0, 5, 9⟩ := by
    simp only [Before]
    omega
  have latest : Before release ⟨0, 5, 9⟩ → Before release ⟨0, 6, 0⟩ := by
    simp only [Before]
    omega
  have met := fun (rule : StripRule) (among : rule ∈ StripPolicy.builtIn) =>
    built_in_met release among
  have chosen : ∀ rule ∈ StripPolicy.builtIn, rule.requirement.matchesRelease release = true →
      (∀ other ∈ StripPolicy.builtIn, other.requirement.matchesRelease release = true →
        other = rule) →
      ∃! rule, rule ∈ StripPolicy.builtIn ∧ rule.requirement.matchesRelease release = true :=
    fun rule among held others => ⟨rule, ⟨among, held⟩, fun other met => others other met.1 met.2⟩
  by_cases first : Before release ⟨0, 4, 7⟩
  · refine chosen StripPolicy.builtIn[0] (by simp) ((met _ (by simp)).mpr (by tauto)) ?_
    exact fun other among held => by have := (met other among).mp held; tauto
  by_cases second : Before release ⟨0, 5, 9⟩
  · refine chosen StripPolicy.builtIn[1] (by simp) ((met _ (by simp)).mpr (by tauto)) ?_
    exact fun other among held => by have := (met other among).mp held; tauto
  by_cases third : Before release ⟨0, 6, 0⟩
  · refine chosen StripPolicy.builtIn[2] (by simp) ((met _ (by simp)).mpr (by tauto)) ?_
    exact fun other among held => by have := (met other among).mp held; tauto
  · refine chosen StripPolicy.builtIn[3] (by simp) ((met _ (by simp)).mpr (by tauto)) ?_
    exact fun other among held => by have := (met other among).mp held; tauto

end BuiltIn

section Policies
variable {own rest : List StripRule} {release : Release} {rule : StripRule}

/-- A rule that decides goes on to do so with more rules behind it. -/
theorem decides_behind (decides : Decides ⟨own⟩ release rule) (rest : List StripRule) :
    Decides ⟨own ++ rest⟩ release rule := by
  obtain ⟨before, after, rules, unmet, met⟩ := decides
  have rules : own = before ++ rule :: after := rules
  exact ⟨before, after ++ rest, by simp [rules], unmet, met⟩

/-- A rule that decides goes on to do so with rules before it that are not met. -/
theorem decides_after (unmet : ∀ earlier ∈ own, earlier.requirement.matchesRelease release = false)
    (decides : Decides ⟨rest⟩ release rule) : Decides ⟨own ++ rest⟩ release rule := by
  obtain ⟨before, after, rules, unmet', met⟩ := decides
  have rules : rest = before ++ rule :: after := rules
  refine ⟨own ++ before, after, by simp [rules], fun earlier among => ?_, met⟩
  rcases List.mem_append.mp among with among | among
  · exact unmet earlier among
  · exact unmet' earlier among

/-- A rule that is met is found behind the rules that are not. -/
theorem decides_or_unmet (rules : List StripRule) (release : Release) :
    (∃ rule, Decides ⟨rules⟩ release rule) ∨
      ∀ earlier ∈ rules, earlier.requirement.matchesRelease release = false := by
  induction rules with
  | nil => exact .inr (by simp)
  | cons first rules ih =>
    cases met : first.requirement.matchesRelease release with
    | true => exact .inl ⟨first, [], rules, rfl, by simp, met⟩
    | false =>
      have unmet : ∀ earlier ∈ [first], earlier.requirement.matchesRelease release = false := by
        simpa using met
      rcases ih with ⟨rule, decides⟩ | others
      · exact .inl ⟨rule, decides_after unmet decides⟩
      · exact .inr (List.forall_mem_cons.mpr ⟨met, others⟩)

theorem decides_met (decides : Decides ⟨own⟩ release rule) :
    rule ∈ own ∧ rule.requirement.matchesRelease release = true := by
  obtain ⟨before, after, rules, -, met⟩ := decides
  have rules : own = before ++ rule :: after := rules
  exact ⟨by simp [rules], met⟩

/-- What is announced is a number of whole bytes. -/
theorem announced_even (code : List Char) : Even (trailerLength code) := by
  by_cases none : trailerLength code = 0
  · simp [none]
  · obtain ⟨body, announced, rfl⟩ := announced_of_length none
    have counted : Text.byteLength announced.text = 2 * (announced.count + 2) := announced.counted
    rw [length_announced, counted]
    exact Nat.even_iff.mpr (by omega)

/-- Rules for whole bytes remove whole bytes. -/
theorem removed_even {policy : StripPolicy} (evens : ∀ rule ∈ policy.rules, Even rule.hexLength)
    (version : Option Release) (code : List Char) :
    ∃ removed, code = policy.strip version code ++ removed ∧ Even (Text.byteLength removed) := by
  have length : Even (policy.stripLength version code) := by
    unfold StripPolicy.stripLength
    cases found : version.bind policy.lengthFor? with
    | none => exact announced_even code
    | some length =>
      obtain ⟨release, -, stated⟩ := Option.bind_eq_some_iff.mp found
      obtain ⟨rule, first, rfl⟩ := Option.map_eq_some_iff.mp stated
      exact evens rule (List.mem_of_find?_eq_some first)
  obtain ⟨removed, whole, size⟩ := dropped (policy.stripLength version code) code
  refine ⟨removed, whole, ?_⟩
  by_cases none : removed = []
  · simp [none, Text.byteLength]
  · rwa [size none]

/-- Under a configuration that is accepted every rule it states is used, in its order and before the
built-in ones, of which every release meets exactly one. The first rule that a release meets tells how
much is removed, whatever the code is. What is removed takes an even number of bytes in any case, and
so it is an even number of characters of hexadecimal code. -/
theorem accepted_rules_honoured (config : Config) (accepted : config.fault? = none) :
    ∃ own, (StripPolicy.ofSettings config.strip).rules = own ++ StripPolicy.builtIn ∧
      List.Forall₂ States config.strip own ∧
      (∀ release, ∃! rule, rule ∈ StripPolicy.builtIn ∧
        rule.requirement.matchesRelease release = true) ∧
      (∀ release, ∃ rule,
        (Decides ⟨own⟩ release rule ∨
          (∀ earlier ∈ own, earlier.requirement.matchesRelease release = false) ∧
            rule ∈ StripPolicy.builtIn ∧ rule.requirement.matchesRelease release = true) ∧
        ∀ code, (StripPolicy.ofSettings config.strip).stripLength (some release) code =
          rule.hexLength) ∧
      ∀ version code, ∃ removed,
        code = (StripPolicy.ofSettings config.strip).strip version code ++ removed ∧
          Even (Text.byteLength removed) ∧
          ((∀ c ∈ removed, c.toNat < 128) → Even removed.length) := by
  have sound := settings_sound accepted
  obtain ⟨stated, evens⟩ := rules_of_sound sound
  refine ⟨_, rfl, stated, one_built_in, fun release => ?_, fun version code => ?_⟩
  · have decided : ∀ {rule}, Decides (StripPolicy.ofSettings config.strip) release rule →
        ∀ code, (StripPolicy.ofSettings config.strip).stripLength (some release) code =
          rule.hexLength := by
      intro rule decides code
      rw [StripPolicy.stripLength, Option.bind_some, length_of_decides decides, Option.getD_some]
    rcases decides_or_unmet (config.strip.filterMap StripSetting.rule?) release with
      ⟨rule, decides⟩ | unmet
    · exact ⟨rule, .inl decides, decided (decides_behind decides _)⟩
    · obtain ⟨rule, ⟨among, met⟩, -⟩ := one_built_in release
      rcases decides_or_unmet StripPolicy.builtIn release with ⟨rule, decides⟩ | others
      · exact ⟨rule, .inr ⟨unmet, decides_met decides⟩, decided (decides_after unmet decides)⟩
      · cases (others rule among).symm.trans met
  · have built_in : ∀ rule ∈ StripPolicy.builtIn, Even rule.hexLength := by decide
    have all : ∀ rule ∈ (StripPolicy.ofSettings config.strip).rules, Even rule.hexLength := by
      intro rule among
      rcases List.mem_append.mp among with among | among
      · exact evens rule among
      · exact built_in rule among
    obtain ⟨removed, whole, even⟩ := removed_even all version code
    exact ⟨removed, whole, even, fun ascii => ascii_length ascii ▸ even⟩

/-- A rule of the project is accepted and kept before the built-in ones. -/
theorem own_rule_kept :
    Config.fault? { Config.default with strip := [⟨">=0.8.0, <0.9", 4⟩] } = none ∧
      ∃ own, (StripPolicy.ofSettings [⟨">=0.8.0, <0.9", 4⟩]).rules = own ++ StripPolicy.builtIn ∧
        List.Forall₂ States [⟨">=0.8.0, <0.9", 4⟩] own := by
  have accepted : Config.fault? { Config.default with strip := [⟨">=0.8.0, <0.9", 4⟩] } = none := by
    decide
  obtain ⟨own, rules, stated, -⟩ := accepted_rules_honoured _ accepted
  exact ⟨accepted, own, rules, stated⟩

/-- Lengths are counted in bytes: two of them, which a rule may ask for, can be one character of a code
that is not hexadecimal. -/
theorem one_letter_removed :
    Config.fault? { Config.default with strip := [⟨"=0.4.21", 2⟩] } = none ∧
      ∃ removed, "é".toList =
          (StripPolicy.ofSettings [⟨"=0.4.21", 2⟩]).strip (some ⟨0, 4, 21⟩) "é".toList ++ removed ∧
        ¬ Even removed.length := by
  have decides : Decides (StripPolicy.ofSettings [⟨"=0.4.21", 2⟩]) ⟨0, 4, 21⟩
      ⟨⟨[.mk .exact 0 (some 4) (some 21) ""]⟩, 2⟩ :=
    ⟨[], StripPolicy.builtIn, by decide, by simp, by decide⟩
  have metadata : MetadataOf _ (some ⟨0, 4, 21⟩) "é".toList := .known decides (by decide)
  have stripped := strip_metadata metadata []
  rw [List.nil_append] at stripped
  exact ⟨by decide, "é".toList, by rw [stripped, List.nil_append], by decide⟩

end Policies

end ContractBuild.HonouredRules
