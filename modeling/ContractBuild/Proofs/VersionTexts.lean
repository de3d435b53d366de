import ContractBuild.Proofs.DecimalForms
import ContractBuild.Proofs.PathPieces
import ContractBuild.Version.Release
import Mathlib.Data.List.DropRight

/-! Version texts name a release exactly by their grammar: blanks around, a letter `v` that may be
there, and three numbers with single dots between them, after which anything may come but a digit. So a
release is read back wherever it is printed, and texts that name the same release form classes. -/
namespace ContractBuild.VersionTexts
open DecimalForms PathPieces

section Trimming
variable {whole core : List Char}

/-- A text without the blanks around it. -/
structure Bare (whole core : List Char) : Prop where
  around : ∃ before after, whole = before ++ core ++ after ∧
    (∀ c ∈ before, Text.isBlank c = true) ∧ ∀ c ∈ after, Text.isBlank c = true
  starts : ∀ c ∈ core.head?, Text.isBlank c = false
  ends : ∀ c ∈ core.getLast?, Text.isBlank c = false

theorem trim_end_of_solid {text after : List Char} (ends : ∀ c ∈ text.getLast?, Text.isBlank c = false)
    (blank : ∀ c ∈ after, Text.isBlank c = true) : Text.trimEnd (text ++ after) = text := by
  have kept : text.reverse.dropWhile Text.isBlank = text.reverse := by
    rw [← List.head?_reverse] at ends
    cases shape : text.reverse with
    | nil => rfl
    | cons c rest => rw [List.dropWhile_cons_of_neg (by simp [ends c (by simp [shape])])]
  rw [Text.trimEnd, List.reverse_append,
    List.dropWhile_append_of_pos fun c inside => blank c (List.mem_reverse.mp inside), kept,
    List.reverse_reverse]

theorem trim_end_split (text : List Char) : ∃ after, text = Text.trimEnd text ++ after ∧
    (∀ c ∈ after, Text.isBlank c = true) ∧
    ∀ c ∈ (Text.trimEnd text).getLast?, Text.isBlank c = false := by
  refine ⟨(text.reverse.takeWhile Text.isBlank).reverse, ?_, fun c inside => ?_, fun c last => ?_⟩
  · rw [Text.trimEnd, ← List.reverse_append, List.takeWhile_append_dropWhile, List.reverse_reverse]
  · exact List.mem_takeWhile_imp (List.mem_reverse.mp inside)
  · have kept := List.head?_dropWhile_not Text.isBlank text.reverse
    rw [Text.trimEnd, List.getLast?_reverse] at last
    rw [Option.mem_def.mp last] at kept
    simpa using kept

/-- Trimming takes the blanks around a text away, and nothing else. -/
theorem trim_iff : Text.trim whole = core ↔ Bare whole core := by
  constructor
  · rintro rfl
    obtain ⟨after, split, blank, ends⟩ := trim_end_split (whole.dropWhile Text.isBlank)
    refine ⟨⟨whole.takeWhile Text.isBlank, after, ?_, fun c => List.mem_takeWhile_imp, blank⟩, ?_,
      ends⟩
    · rw [Text.trim, List.append_assoc, ← split, List.takeWhile_append_dropWhile]
    · intro c first
      have kept := List.head?_dropWhile_not Text.isBlank whole
      rw [split, List.head?_append, show (Text.trimEnd _).head? = some c from first] at kept
      simpa using kept
  · rintro ⟨⟨before, after, rfl, blank, blank'⟩, starts, ends⟩
    rw [Text.trim, List.append_assoc, List.dropWhile_append_of_pos blank]
    cases core with
    | nil => simp [List.dropWhile_eq_nil_iff.mpr blank', Text.trimEnd]
    | cons c rest =>
      rw [List.cons_append, List.dropWhile_cons_of_neg (by simp [starts c (by simp)]),
        ← List.cons_append, trim_end_of_solid ends blank']

end Trimming

section Grammar
variable {text field digits : List Char} {n : Nat} {release : Release} {version : String}

/-- Digits write a number that is small enough for a release. -/
structure Writes (digits : List Char) (n : Nat) : Prop where
  any : digits ≠ []
  plain : ∀ c ∈ digits, Text.isDigit c = true
  value : Text.ofDecimal digits = n
  fits : n < Release.bound

/-- A text starts with the three numbers of a release. -/
def StartsWith (text : List Char) (release : Release) : Prop :=
  ∃ major minor patch rest, text = major ++ '.' :: (minor ++ '.' :: (patch ++ rest)) ∧
    Writes major release.major ∧ Writes minor release.minor ∧ Writes patch release.patch ∧
    ∀ c ∈ rest.head?, Text.isDigit c = false

/-- A version text names a release, with blanks around it and a letter `v` before it or not. -/
def Names (version : String) (release : Release) : Prop :=
  ∃ core, Bare version.toList core ∧
    (StartsWith core release ∨ ∃ rest, core = 'v' :: rest ∧ StartsWith rest release)

/-- Whether a character can be in the numbers of a release and between them. -/
def inRun (c : Char) : Bool := Text.isDigit c || c == '.'

/-- The release that a text starts with. -/
def leading? (text : List Char) : Option Release :=
  match Text.split (· == '.') (text.takeWhile inRun) with
  | major :: minor :: patch :: _ => do
    let major ← Text.decimalBelow? Release.bound major
    let minor ← Text.decimalBelow? Release.bound minor
    let patch ← Text.decimalBelow? Release.bound patch
    return ⟨major, minor, patch⟩
  | _ => none

/-- A text without the letter `v` at its start. -/
def unmarked : List Char → List Char
  | 'v' :: rest => rest
  | text => text

theorem of_version_eq (version : String) :
    Release.ofVersion? version = leading? (unmarked (Text.trim version.toList)) := rfl

theorem leading_iff : leading? text = some release ↔
    ∃ major minor patch more, Text.split (· == '.') (text.takeWhile inRun) =
        major :: minor :: patch :: more ∧
      Text.decimalBelow? Release.bound major = some release.major ∧
      Text.decimalBelow? Release.bound minor = some release.minor ∧
      Text.decimalBelow? Release.bound patch = some release.patch := by
  unfold leading?
  split
  · rename_i major minor patch more fields
    simp only [Option.bind_eq_bind, Option.bind_eq_some_iff, fields, List.cons.injEq]
    constructor
    · rintro ⟨first, read, second, read', third, read'', same⟩
      obtain rfl := Option.some.inj same
      exact ⟨major, minor, patch, more, ⟨rfl, rfl, rfl, rfl⟩, read, read', read''⟩
    · rintro ⟨_, _, _, _, ⟨rfl, rfl, rfl, rfl⟩, read, read', read''⟩
      exact ⟨_, read, _, read', _, read'', rfl⟩
  · rename_i few
    constructor
    · intro read
      cases read
    · rintro ⟨major, minor, patch, more, fields, -⟩
      exact absurd fields (few major minor patch more)

/-- Digits are read as the number that they write if it is below the bound. -/
theorem below_of_digits (plain : ∀ c ∈ digits, Text.isDigit c = true) (bound : Nat) :
    Text.decimalBelow? bound digits =
      if digits ≠ [] ∧ digits.all Text.isDigit ∧ Text.ofDecimal digits < bound then
        some (Text.ofDecimal digits) else none := by
  cases digits with
  | nil => rfl
  | cons c rest =>
    have unsigned : c ≠ '+' := by
      rintro rfl
      exact absurd (plain '+' List.mem_cons_self) (by decide)
    simp [Text.decimalBelow?, unsigned]

/-- A field of a run has a number below the bound if it has digits that write one. A sign, which could
stand before a number elsewhere, is in no run. -/
theorem number_iff (inside : ∀ c ∈ field, inRun c = true) (whole : '.' ∉ field) :
    Text.decimalBelow? Release.bound field = some n ↔ Writes field n := by
  have plain : ∀ c ∈ field, Text.isDigit c = true := by
    intro c among
    have digit := inside c among
    simp only [inRun, Bool.or_eq_true, beq_iff_eq] at digit
    refine digit.resolve_right ?_
    rintro rfl
    exact whole among
  rw [below_of_digits plain]
  constructor
  · intro read
    split at read
    · rename_i number
      obtain rfl := Option.some.inj read
      exact ⟨number.1, plain, rfl, number.2.2⟩
    · cases read
  · rintro ⟨any, -, rfl, fits⟩
    rw [if_pos ⟨any, List.all_eq_true.mpr plain, fits⟩]

theorem writes_whole (writes : Writes digits n) : '.' ∉ digits ∧ ∀ c ∈ digits, inRun c = true := by
  refine ⟨fun dot => absurd (writes.plain '.' dot) (by decide), fun c inside => ?_⟩
  simp [inRun, writes.plain c inside]

/-- The numbers of a release at the start of a text are the first three fields of its run: what follows
the third number starts with another dot or is no part of the run. -/
theorem fields_of_start {major minor patch rest : List Char} {a b c : Nat} (first : Writes major a)
    (second : Writes minor b) (third : Writes patch c)
    (stop : ∀ c ∈ rest.head?, Text.isDigit c = false) :
    ∃ more, Text.split (· == '.')
        ((major ++ '.' :: (minor ++ '.' :: (patch ++ rest))).takeWhile inRun) =
      major :: minor :: patch :: more := by
  obtain ⟨whole, run⟩ := writes_whole first
  obtain ⟨whole', run'⟩ := writes_whole second
  obtain ⟨whole'', run''⟩ := writes_whole third
  have dot : inRun '.' = true := by decide
  rw [List.takeWhile_append_of_pos run, List.takeWhile_cons_of_pos dot,
    List.takeWhile_append_of_pos run', List.takeWhile_cons_of_pos dot,
    List.takeWhile_append_of_pos run'', split_append, split_append, split_of_not_mem whole,
    split_of_not_mem whole']
  cases rest with
  | nil =>
    rw [List.takeWhile_nil, List.append_nil, split_of_not_mem whole'']
    exact ⟨[], rfl⟩
  | cons next rest =>
    have digit := stop next (by simp)
    by_cases dotted : next = '.'
    · subst dotted
      rw [List.takeWhile_cons_of_pos dot, split_append, split_of_not_mem whole'']
      exact ⟨_, rfl⟩
    · rw [List.takeWhile_cons_of_neg (by simp [inRun, digit, dotted]), List.append_nil,
        split_of_not_mem whole'']
      exact ⟨[], rfl⟩

/-- A release is read from a text exactly if the text starts with its numbers. -/
theorem leading_iff_starts : leading? text = some release ↔ StartsWith text release := by
  rw [leading_iff]
  constructor
  · rintro ⟨major, minor, patch, more, fields, read, read', read''⟩
    have number : ∀ {field n}, field ∈ major :: minor :: patch :: more →
        Text.decimalBelow? Release.bound field = some n → Writes field n := by
      intro field n among read
      rw [← fields] at among
      refine (number_iff (fun c inside => ?_) (not_mem_of_mem_split among)).mp read
      by_cases dotted : c = '.'
      · subst dotted
        decide
      · have inner := (mem_join_iff dotted _).mpr ⟨field, among, inside⟩
        rw [Text.join_split] at inner
        exact List.mem_takeWhile_imp inner
    have run := Text.join_split '.' (text.takeWhile inRun)
    rw [fields] at run
    have stop : ∀ c ∈ (text.dropWhile inRun).head?, Text.isDigit c = false := by
      intro c first
      have outside := List.head?_dropWhile_not inRun text
      rw [Option.mem_def.mp first] at outside
      simp only [inRun] at outside
      simp_all
    have split := List.takeWhile_append_dropWhile (p := inRun) (l := text)
    cases more with
    | nil =>
      refine ⟨major, minor, patch, text.dropWhile inRun, ?_, number (by simp) read,
        number (by simp) read', number (by simp) read'', stop⟩
      rw [← run] at split
      simpa [Text.join] using split.symm
    | cons next more =>
      refine ⟨major, minor, patch,
        '.' :: (Text.join ['.'] (next :: more) ++ text.dropWhile inRun), ?_, number (by simp) read,
        number (by simp) read', number (by simp) read'', by simp [Text.isDigit]⟩
      rw [← run] at split
      simpa [Text.join] using split.symm
  · rintro ⟨major, minor, patch, rest, rfl, first, second, third, stop⟩
    obtain ⟨more, fields⟩ := fields_of_start first second third stop
    have read : ∀ {digits n}, Writes digits n →
        Text.decimalBelow? Release.bound digits = some n := by
      intro digits n writes
      obtain ⟨whole, run⟩ := writes_whole writes
      exact (number_iff run whole).mpr writes
    exact ⟨major, minor, patch, more, fields, read first, read second, read third⟩

/-- No release starts with a letter. -/
theorem starts_with_digit (starts : StartsWith text release) :
    ∃ c rest, text = c :: rest ∧ Text.isDigit c = true := by
  obtain ⟨major, minor, patch, rest, rfl, first, -⟩ := starts
  obtain ⟨c, digits, shape⟩ := List.exists_cons_of_ne_nil first.any
  exact ⟨c, _, by rw [shape]; rfl, first.plain c (by simp [shape])⟩

/-- A release is read from a version text exactly if the text names it. -/
theorem of_version_iff : Release.ofVersion? version = some release ↔ Names version release := by
  have bare : Bare version.toList (Text.trim version.toList) := trim_iff.mp rfl
  have marked : ∀ core : List Char, leading? (unmarked core) = some release ↔
      StartsWith core release ∨ ∃ rest, core = 'v' :: rest ∧ StartsWith rest release := by
    intro core
    unfold unmarked
    split
    · rename_i rest
      rw [leading_iff_starts]
      constructor
      · exact fun starts => Or.inr ⟨rest, rfl, starts⟩
      · rintro (starts | ⟨rest', same, starts⟩)
        · obtain ⟨c, _, same, digit⟩ := starts_with_digit starts
          obtain ⟨rfl, -⟩ := List.cons.inj same
          exact absurd digit (by decide)
        · obtain ⟨-, rfl⟩ := List.cons.inj same
          exact starts
    · rename_i other
      rw [leading_iff_starts]
      refine ⟨Or.inl, fun starts => starts.resolve_right ?_⟩
      rintro ⟨rest, same, -⟩
      exact other rest same
  rw [of_version_eq, marked]
  constructor
  · exact fun starts => ⟨_, bare, starts⟩
  · rintro ⟨core, own, starts⟩
    rwa [trim_iff.mpr own]

end Grammar

section Printed
variable {release : Release} {c : Char} {before after suffix : List Char}

/-- The numbers of a release are small enough for one. -/
structure Fits (release : Release) : Prop where
  major : release.major < Release.bound
  minor : release.minor < Release.bound
  patch : release.patch < Release.bound

theorem digit_solid (digit : Text.isDigit c = true) : Text.isBlank c = false := by
  have zero : '0'.toNat = 48 := by decide
  have nine : '9'.toNat = 57 := by decide
  simp only [Text.isDigit, Bool.and_eq_true, decide_eq_true_eq, Char.le_def, UInt32.le_iff_toNat_le,
    Char.toNat_val] at digit
  simp only [Text.isBlank, Text.blankRanges, List.any_cons, List.any_nil, Bool.or_false,
    Bool.or_eq_false_iff, Bool.and_eq_false_iff, decide_eq_false_iff_not]
  omega

theorem writes_decimal {n : Nat} (fits : n < Release.bound) : Writes (Text.decimal n) n where
  any none := by
    by_cases small : n < 10
    · simp [decimal_small small] at none
    · simp [decimal_large small] at none
  plain := decimal_digits n
  value := value_of_decimal n
  fits := fits

theorem text_eq (release : Release) : release.text.toList =
    Text.decimal release.major ++ '.' :: (Text.decimal release.minor ++ '.' ::
      Text.decimal release.patch) := by
  simp [Release.text, Text.join]

/-- A printed release is solid at both ends. -/
theorem text_ends (fits : Fits release) :
    (∀ c ∈ release.text.toList.head?, Text.isBlank c = false) ∧
      (∀ c ∈ release.text.toList.getLast?, Text.isBlank c = false) ∧ release.text.toList ≠ [] := by
  have first := writes_decimal fits.major
  have last := writes_decimal fits.patch
  have solid : ∀ {digits n}, Writes digits n → ∀ c ∈ digits, Text.isBlank c = false :=
    fun writes c inside => digit_solid (writes.plain c inside)
  rw [text_eq]
  refine ⟨fun c at_ => ?_, fun c at_ => ?_, by simp [first.any]⟩
  · rw [List.head?_append_of_ne_nil _ first.any] at at_
    exact solid first c (List.mem_of_head? at_)
  · rw [List.getLast?_append_of_ne_nil _ (by simp), List.getLast?_cons_of_ne_nil (by simp),
      List.getLast?_append_of_ne_nil _ (by simp), List.getLast?_cons_of_ne_nil last.any] at at_
    exact solid last c (List.mem_of_getLast? at_)

/-- A release is read back from its printed form, whatever stands around it. -/
theorem printed_read (fits : Fits release) (blank : ∀ c ∈ before, Text.isBlank c = true)
    (blank' : ∀ c ∈ after, Text.isBlank c = true)
    (stop : ∀ c ∈ suffix.head?, Text.isDigit c = false) {mark : List Char}
    (marked : mark = [] ∨ mark = ['v']) :
    Release.ofVersion? (String.ofList
      (before ++ mark ++ release.text.toList ++ suffix ++ after)) = some release := by
  obtain ⟨starts, ends, nonempty⟩ := text_ends fits
  obtain ⟨dropped, split, blanks, last⟩ := trim_end_split suffix
  have stop' : ∀ c ∈ (Text.trimEnd suffix).head?, Text.isDigit c = false := by
    intro c first
    refine stop c ?_
    rw [split, List.head?_append, Option.mem_def.mp first]
    rfl
  have leads : StartsWith (release.text.toList ++ Text.trimEnd suffix) release :=
    ⟨_, _, _, _, by rw [text_eq]; simp, writes_decimal fits.major, writes_decimal fits.minor,
      writes_decimal fits.patch, stop'⟩
  refine of_version_iff.mpr ⟨mark ++ (release.text.toList ++ Text.trimEnd suffix), ⟨⟨before,
    dropped ++ after, ?_, blank, ?_⟩, ?_, ?_⟩, ?_⟩
  · rw [String.toList_ofList]
    nth_rewrite 1 [split]
    simp
  · intro c inside
    rcases List.mem_append.mp inside with inside | inside
    · exact blanks c inside
    · exact blank' c inside
  · rcases marked with rfl | rfl
    · rwa [List.nil_append, List.head?_append_of_ne_nil _ nonempty]
    · simpa using show Text.isBlank 'v' = false by decide
  · rw [List.getLast?_append_of_ne_nil _ (by simp [nonempty])]
    by_cases none : Text.trimEnd suffix = []
    · rwa [none, List.append_nil]
    · rwa [List.getLast?_append_of_ne_nil _ none]
  · rcases marked with rfl | rfl
    · exact Or.inl leads
    · exact Or.inr ⟨_, rfl, leads⟩

end Printed

section Classes
variable {a b : String} {x y : Release}

/-- Texts that name releases name the same one if the releases are equal. -/
theorem same_compiler_named (read : Release.ofVersion? a = some x)
    (read' : Release.ofVersion? b = some y) : sameCompiler a b = true ↔ x = y := by
  simp [sameCompiler, read, read']

/-- Two version texts name the same release if they name one and the same, or they are one text. -/
theorem same_compiler_cases : sameCompiler a b = true ↔
    a = b ∨ ∃ release, Release.ofVersion? a = some release ∧
      Release.ofVersion? b = some release := by
  cases read : Release.ofVersion? a with
  | none => simp [sameCompiler, read]
  | some x =>
    cases read' : Release.ofVersion? b with
    | none =>
      simp [sameCompiler, read, read']
    | some y =>
      rw [same_compiler_named read read']
      constructor
      · rintro rfl
        exact Or.inr ⟨x, rfl, rfl⟩
      · rintro (rfl | ⟨release, own, own'⟩)
        · exact Option.some.inj (read.symm.trans read')
        · exact (Option.some.inj own).trans (Option.some.inj own').symm

theorem same_compiler_equivalence : Equivalence fun a b => sameCompiler a b = true where
  refl a := same_compiler_cases.mpr (Or.inl rfl)
  symm related := by
    rcases same_compiler_cases.mp related with rfl | ⟨release, read, read'⟩
    · exact related
    · exact same_compiler_cases.mpr (Or.inr ⟨release, read', read⟩)
  trans related related' := by
    rcases same_compiler_cases.mp related with rfl | ⟨release, read, read'⟩
    · exact related'
    · rcases same_compiler_cases.mp related' with rfl | ⟨release', own, own'⟩
      · exact related
      · obtain rfl := Option.some.inj (read'.symm.trans own)
        exact same_compiler_cases.mpr (Or.inr ⟨release, read, own'⟩)

/-- The grammar of version texts, what it reads of printed releases, and the classes that it makes. -/
theorem version_grammar :
    (∀ version release, Release.ofVersion? version = some release ↔ Names version release) ∧
    (∀ release before mark suffix after, Fits release → (∀ c ∈ before, Text.isBlank c = true) →
      (∀ c ∈ after, Text.isBlank c = true) → (mark = [] ∨ mark = ['v']) →
      (∀ c ∈ suffix.head?, Text.isDigit c = false) →
      Release.ofVersion? (String.ofList
        (before ++ mark ++ release.text.toList ++ suffix ++ after)) = some release) ∧
    (Equivalence fun a b => sameCompiler a b = true) ∧
    ∀ a b x y, Release.ofVersion? a = some x → Release.ofVersion? b = some y →
      (sameCompiler a b = true ↔ x = y) :=
  ⟨fun _ _ => of_version_iff,
    fun _ _ _ _ _ fits blank blank' marked stop => printed_read fits blank blank' stop marked,
    same_compiler_equivalence, fun _ _ _ _ => same_compiler_named⟩

/-- A commit after the release, the letter before it and a line end do not hide the release, and a
text that only names the release stands for the same compiler. -/
theorem commit_version_read :
    Release.ofVersion? " v0.4.21+commit.dfe3193c.Linux.g++\n" = some ⟨0, 4, 21⟩ ∧
      sameCompiler " v0.4.21+commit.dfe3193c.Linux.g++\n" "0.4.21" = true := by
  let release : Release := ⟨0, 4, 21⟩
  have fits : Fits release := ⟨by decide, by decide, by decide⟩
  have printed : release.text.toList = "0.4.21".toList := by
    rw [text_eq, decimal_large (show ¬ release.patch < 10 by decide),
      decimal_small (show release.major < 10 by decide),
      decimal_small (show release.minor < 10 by decide),
      decimal_small (show release.patch / 10 < 10 by decide)]
    decide
  have blank : Text.isBlank ' ' = true ∧ Text.isBlank '\n' = true := by decide
  have stop : Text.isDigit '+' = false := by decide
  have read := version_grammar.2.1 release [' '] ['v'] "+commit.dfe3193c.Linux.g++".toList ['\n'] fits
    (by simpa using blank.1) (by simpa using blank.2) (Or.inr rfl) (by simpa using stop)
  have read' := version_grammar.2.1 release [] [] [] [] fits (by simp) (by simp) (Or.inl rfl) (by simp)
  rw [printed] at read read'
  exact ⟨read, (version_grammar.2.2.2 _ _ release release read read').mpr rfl⟩

end Classes

end ContractBuild.VersionTexts
