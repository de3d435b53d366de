import ContractBuild.Bytecode.StripPolicy
import ContractBuild.Proofs.PathWalk

/-! Stripping removes the metadata of a code and nothing else. What is removed is told by its length
alone: by the length that a rule states, or by the length that the code itself announces. So code with
other metadata after the same body strips to the same text, whatever the body looks like. -/
namespace ContractBuild.StrippedCode
open Bytecode
open PathWalk (byte_length_append)

section Digits
variable {c : Char} {digits field : List Char} {n count : Nat}

/-- Whether a character is a hexadecimal digit. -/
def IsHex (c : Char) : Prop := (Text.hexValue? c).isSome

instance (c : Char) : Decidable (IsHex c) := inferInstanceAs (Decidable (_ = true))

/-- The number that hexadecimal digits write. -/
def hexNumber (digits : List Char) : Nat :=
  digits.foldl (fun n c => 16 * n + (Text.hexValue? c).getD 0) 0

theorem ascii_size (ascii : c.toNat < 128) : c.utf8Size = 1 := by
  rw [Char.utf8Size_eq_one_iff, UInt32.le_iff_toNat_le, Char.toNat_val]
  exact Nat.le_of_lt_succ ascii

theorem ascii_length {text : List Char} (ascii : ∀ c ∈ text, c.toNat < 128) :
    Text.byteLength text = text.length := by
  induction text with
  | nil => rfl
  | cons c text ih =>
    rw [List.forall_mem_cons] at ascii
    rw [Text.byteLength, ascii_size ascii.1, ih ascii.2, List.length_cons, Nat.add_comm]

/-- Hexadecimal digits are ASCII characters. -/
theorem hex_ascii (hex : IsHex c) : c.toNat < 128 := by
  by_contra high
  rw [IsHex, Text.hexValue?_eq, if_neg (by omega), if_neg (by omega), if_neg (by omega)] at hex
  cases hex

theorem hex_length (hex : ∀ c ∈ digits, IsHex c) : Text.byteLength digits = digits.length :=
  ascii_length fun c among => hex_ascii (hex c among)

/-- Digits are read one after the other exactly if all of them are digits. -/
private theorem digits_read (digits : List Char) (n m : Nat) :
    digits.foldlM (fun n c => (Text.hexValue? c).map fun value => 16 * n + value) n = some m ↔
      (∀ c ∈ digits, IsHex c) ∧
        m = digits.foldl (fun n c => 16 * n + (Text.hexValue? c).getD 0) n := by
  induction digits generalizing n with
  | nil => simp [eq_comm]
  | cons c digits ih =>
    rw [List.foldlM_cons, List.foldl_cons, List.forall_mem_cons]
    cases digit : Text.hexValue? c with
    | none => simp [IsHex, digit]
    | some value => simpa [IsHex, digit] using ih (16 * n + value)

/-- A number is read from hexadecimal digits, which a plus sign may precede, and from nothing else. -/
theorem number_read : ofHexDigits? field = some n ↔
    ∃ digits, digits ≠ [] ∧ (∀ c ∈ digits, IsHex c) ∧ n = hexNumber digits ∧
      (field = digits ∨ field = '+' :: digits) := by
  have read : ∀ digits : List Char, (if digits = [] then none else digits.foldlM
      (fun n c => (Text.hexValue? c).map fun value => 16 * n + value) 0) = some n ↔
        digits ≠ [] ∧ (∀ c ∈ digits, IsHex c) ∧ n = hexNumber digits := by
    intro digits
    by_cases none : digits = []
    · simp [none]
    · rw [if_neg none, digits_read]
      simp [none, hexNumber]
  by_cases signed : ∃ rest, field = '+' :: rest
  · obtain ⟨rest, rfl⟩ := signed
    have plus : ¬ IsHex '+' := by decide
    refine (read rest).trans ⟨fun ⟨any, hex, same⟩ => ⟨rest, any, hex, same, .inr rfl⟩, ?_⟩
    rintro ⟨digits, any, hex, same, rfl | whole⟩
    · exact absurd (hex '+' List.mem_cons_self) plus
    · obtain rfl := (List.cons.inj whole).2
      exact ⟨any, hex, same⟩
  · have unsigned : ofHexDigits? field = some n ↔
        field ≠ [] ∧ (∀ c ∈ field, IsHex c) ∧ n = hexNumber field := by
      rw [← read field]
      unfold ofHexDigits?
      split
      · exact absurd ⟨_, rfl⟩ signed
      · rfl
    refine unsigned.trans ⟨fun ⟨any, hex, same⟩ => ⟨field, any, hex, same, .inl rfl⟩, ?_⟩
    rintro ⟨digits, any, hex, same, rfl | whole⟩
    · exact ⟨any, hex, same⟩
    · exact absurd ⟨_, whole⟩ signed

private theorem fold_bound (digits : List Char) (n : Nat) (hex : ∀ c ∈ digits, IsHex c) :
    digits.foldl (fun n c => 16 * n + (Text.hexValue? c).getD 0) n <
      (n + 1) * Nat.pow 16 digits.length := by
  induction digits generalizing n with
  | nil =>
    have one : Nat.pow 16 0 = 1 := rfl
    rw [List.foldl_nil, List.length_nil, one]
    omega
  | cons c digits ih =>
    rw [List.forall_mem_cons] at hex
    obtain ⟨value, digit⟩ := Option.isSome_iff_exists.mp hex.1
    have small := (Text.hexValue?_eq_some_iff.mp digit).1
    have room : 16 * n + value + 1 ≤ (n + 1) * 16 := by omega
    have step : Nat.pow 16 (digits.length + 1) = 16 * Nat.pow 16 digits.length := Nat.mul_comm ..
    rw [List.foldl_cons, digit, Option.getD_some, List.length_cons, step, ← Nat.mul_assoc]
    exact Nat.lt_of_lt_of_le (ih _ hex.2) (Nat.mul_le_mul_right _ room)

theorem number_bound (hex : ∀ c ∈ digits, IsHex c) :
    hexNumber digits < Nat.pow 16 digits.length := by
  simpa [hexNumber] using fold_bound digits 0 hex

/-- What is read from a field of four bytes is a number of two bytes. -/
theorem count_bound (four : Text.byteLength field = 4) (read : ofHexDigits? field = some count) :
    count < 65536 := by
  obtain ⟨digits, -, hex, rfl, rfl | rfl⟩ := number_read.mp read
  · have bound := number_bound hex
    rwa [← hex_length hex, four] at bound
  · have sign : '+'.utf8Size = 1 := by decide
    have limit : Nat.pow 16 3 = 4096 := rfl
    rw [Text.byteLength, hex_length hex, sign] at four
    have bound := number_bound hex
    rw [show digits.length = 3 by omega, limit] at bound
    omega

end Digits

section Cutting

private theorem nil_of_length {text : List Char} (none : Text.byteLength text = 0) : text = [] := by
  cases text with
  | nil => rfl
  | cons c text =>
    have wide := c.utf8Size_pos
    rw [Text.byteLength] at none
    omega

/-- What is dropped has the length asked for, if anything is dropped. -/
theorem dropped (length : Nat) (code : List Char) :
    ∃ removed, code = dropEnd length code ++ removed ∧
      (removed ≠ [] → Text.byteLength removed = length) := by
  unfold dropEnd
  dsimp only
  split
  · exact ⟨[], by simp⟩
  · split
    · rename_i body after cut
      obtain ⟨rfl, offset⟩ := Text.append_of_cutAt? cut
      rw [byte_length_append] at *
      exact ⟨after, rfl, fun _ => by omega⟩
    · exact ⟨[], by simp⟩

/-- Dropping what is after a text leaves the text. -/
theorem drop_after (body trailer : List Char) :
    dropEnd (Text.byteLength trailer) (body ++ trailer) = body := by
  have offset : Text.byteLength (body ++ trailer) - Text.byteLength trailer =
      Text.byteLength body := by
    rw [byte_length_append, Nat.add_sub_cancel]
  unfold dropEnd
  dsimp only
  rw [offset, Text.cutAt?_append]
  split
  · rename_i short
    rw [byte_length_append] at short
    have nothing : trailer = [] := nil_of_length (by omega)
    simp [nothing]
  · rfl

end Cutting

section Announcements
variable {code : List Char}

/-- A text that code can end in: the header of a map, the rest of the map, and a field of four bytes
from which the length of the map is read. -/
structure Announcement where
  header : List Char
  middle : List Char
  field : List Char
  count : Nat
  opens : header.map Char.toLower ∈ mapHeaders
  four : Text.byteLength field = 4
  read : ofHexDigits? field = some count
  inhabited : 1 ≤ count
  counted : Text.byteLength (header ++ (middle ++ field)) = 2 * (count + 2)

/-- The whole text. -/
def Announcement.text (announced : Announcement) : List Char :=
  announced.header ++ (announced.middle ++ announced.field)

private theorem lower_size (c : Char) : c.toLower.utf8Size = c.utf8Size := by
  by_cases capital : c.val ≥ 'A'.val ∧ c.val ≤ 'Z'.val
  · have low := UInt32.le_iff_toNat_le.mp capital.1
    have high := UInt32.le_iff_toNat_le.mp capital.2
    have ends : 'A'.val.toNat = 65 ∧ 'Z'.val.toNat = 90 := by decide
    rw [Char.toNat_val] at low high
    have lowered : c.toLower.toNat < 128 := by
      have shape : c.toLower = _ := dif_pos capital
      rw [shape, ← Char.toNat_val]
      simp
      omega
    rw [ascii_size lowered, ascii_size (by omega)]
  · have shape : c.toLower = c := dif_neg capital
    rw [shape]

/-- The header of a map takes two bytes. -/
theorem header_length {header : List Char} (opens : header.map Char.toLower ∈ mapHeaders) :
    Text.byteLength header = 2 := by
  have lowered : ∀ text : List Char,
      Text.byteLength (text.map Char.toLower) = Text.byteLength text := by
    intro text
    induction text with
    | nil => rfl
    | cons c text ih => rw [List.map_cons, Text.byteLength, Text.byteLength, lower_size, ih]
  have each : ∀ header ∈ mapHeaders, Text.byteLength header = 2 := by decide
  rw [← lowered, each _ opens]

/-- Code announces the length of what it ends in. -/
theorem length_announced (body : List Char) (announced : Announcement) :
    trailerLength (body ++ announced.text) = Text.byteLength announced.text := by
  obtain ⟨header, middle, field, count, opens, four, read, inhabited, counted⟩ := announced
  simp only [Announcement.text]
  have size := byte_length_append body (header ++ (middle ++ field))
  have field_cut : Text.cutAt? (Text.byteLength (body ++ (header ++ (middle ++ field))) - 4)
      (body ++ (header ++ (middle ++ field))) = some (body ++ (header ++ middle), field) := by
    have offset : Text.byteLength (body ++ (header ++ (middle ++ field))) - 4 =
        Text.byteLength (body ++ (header ++ middle)) := by
      simp only [byte_length_append]
      omega
    rw [offset]
    simpa using Text.cutAt?_append (body ++ (header ++ middle)) field
  have text_cut : Text.cutAt? (Text.byteLength (body ++ (header ++ (middle ++ field))) -
      (count + 2) * 2) (body ++ (header ++ (middle ++ field))) =
        some (body, header ++ (middle ++ field)) := by
    rw [size, counted, Nat.mul_comm, Nat.add_sub_cancel, Text.cutAt?_append]
  have starts : startsMap (header ++ (middle ++ field)) = true := by
    have cut := Text.cutAt?_append header (middle ++ field)
    rw [header_length opens] at cut
    simpa [startsMap, cut] using opens
  unfold trailerLength
  dsimp only
  rw [if_neg (by omega), field_cut]
  simp only [Option.bind_some, read]
  rw [if_neg (by omega), text_cut]
  simp only [starts, if_true]
  omega

/-- A text that starts with the header of a map. -/
theorem header_of_starts {text : List Char} (starts : startsMap text = true) :
    ∃ header rest, text = header ++ rest ∧ header.map Char.toLower ∈ mapHeaders := by
  unfold startsMap at starts
  split at starts
  · rename_i header rest cut
    exact ⟨header, rest, (Text.append_of_cutAt? cut).1.symm, List.contains_iff_mem.mp starts⟩
  · cases starts

/-- The field and the map, each cut off by its length, are parts of one text: the map is long enough
for its header not to reach into the field. -/
private theorem announced_of_cuts {before field body trailer : List Char} {count : Nat}
    (long : 4 ≤ Text.byteLength code)
    (field_cut : Text.cutAt? (Text.byteLength code - 4) code = some (before, field))
    (read : ofHexDigits? field = some count) (inhabited : 1 ≤ count)
    (fits : (count + 2) * 2 ≤ Text.byteLength code)
    (trailer_cut : Text.cutAt? (Text.byteLength code - (count + 2) * 2) code = some (body, trailer))
    (starts : startsMap trailer = true) :
    ∃ (body : List Char) (announced : Announcement), code = body ++ announced.text := by
  obtain ⟨whole, before_length⟩ := Text.append_of_cutAt? field_cut
  obtain ⟨whole', body_length⟩ := Text.append_of_cutAt? trailer_cut
  obtain ⟨header, rest, rfl, opens⟩ := header_of_starts starts
  have header_two := header_length opens
  have size := congrArg Text.byteLength whole
  have size' := congrArg Text.byteLength whole'
  rw [byte_length_append] at size
  rw [byte_length_append, byte_length_append] at size'
  have same : before ++ field = (body ++ header) ++ rest := by rw [whole, ← whole', List.append_assoc]
  obtain ⟨middle, split⟩ : ∃ middle, rest = middle ++ field := by
    rcases List.append_eq_append_iff.mp same with ⟨excess, shape, ends⟩ | ⟨middle, -, ends⟩
    · have lengths := congrArg Text.byteLength ends
      rw [byte_length_append] at lengths
      obtain rfl : excess = [] := nil_of_length (by omega)
      exact ⟨[], ends.symm⟩
    · exact ⟨middle, ends⟩
  subst split
  have counted : Text.byteLength (header ++ (middle ++ field)) = 2 * (count + 2) := by
    rw [byte_length_append]
    omega
  exact ⟨body, ⟨header, middle, field, count, opens, by omega, read, inhabited, counted⟩,
    whole'.symm⟩

/-- Code that announces a length ends in what it announces. -/
theorem announced_of_length (any : trailerLength code ≠ 0) :
    ∃ (body : List Char) (announced : Announcement), code = body ++ announced.text := by
  unfold trailerLength at any
  dsimp only at any
  split at any
  · contradiction
  · rename_i long
    split at any
    · contradiction
    · rename_i count found
      obtain ⟨⟨before, field⟩, field_cut, read⟩ := Option.bind_eq_some_iff.mp found
      split at any
      · contradiction
      · rename_i fits
        split at any
        · rename_i body trailer trailer_cut
          split at any
          · rename_i starts
            rw [not_or] at fits
            exact announced_of_cuts (by omega) field_cut read (by omega) (by omega) trailer_cut starts
          · contradiction
        · contradiction

end Announcements

section Machine
variable {code : List Char}

/-- A difference of lengths. A machine has none below zero. -/
def difference? (a b : Nat) : Option Nat := if b ≤ a then some (a - b) else none

/-- A length. A machine has none beyond 64 bits. -/
def word? (n : Nat) : Option Nat := if n < Nat.pow 2 64 then some n else none

/-- A position in code. There is none beyond its end. -/
def position? (code : List Char) (n : Nat) : Option Nat :=
  if n ≤ Text.byteLength code then some n else none

/-- The length that code announces, by steps that a machine may be unable to take. -/
def announcedLength? (code : List Char) : Option Nat :=
  let size := Text.byteLength code
  if size < 4 then some 0
  else
    (difference? size 4).bind fun start =>
      match (Text.cutAt? start code).bind fun (_, tail) => ofHexDigits? tail with
      | none => some 0
      | some count =>
        (word? (count + 2)).bind fun sum => (word? (sum * 2)).bind fun total =>
          if count = 0 ∨ size < total then some 0
          else
            (difference? size total).bind fun start =>
              (position? code (start + 2)).bind fun _ =>
                match Text.cutAt? start code with
                | some (_, trailer) => some (if startsMap trailer then total else 0)
                | none => some 0

/-- Code without its trailer, by steps that a machine may be unable to take: it cuts text between two
characters only, and has to know that before it cuts. -/
def strip? (policy : StripPolicy) (release : Option Release) (code : List Char) :
    Option (List Char) :=
  let size := Text.byteLength code
  let length := match release.bind policy.lengthFor? with
    | some length => some length
    | none => announcedLength? code
  length.bind fun length =>
    if length = 0 ∨ size < length then some code
    else
      (difference? size length).bind fun start =>
        if (Text.cutAt? start code).isNone then some code
        else (Text.cutAt? start code).map Prod.fst

private theorem word_small {n : Nat} (small : n < 131076) : word? n = some n := by
  have words : Nat.pow 2 64 = 18446744073709551616 := rfl
  exact if_pos (by omega)

private theorem announced_length (code : List Char) :
    announcedLength? code = some (trailerLength code) := by
  unfold announcedLength? trailerLength
  dsimp only
  split
  · rfl
  · have start : difference? (Text.byteLength code) 4 = some (Text.byteLength code - 4) :=
      if_pos (by omega)
    rw [start, Option.bind_some]
    cases found : (Text.cutAt? (Text.byteLength code - 4) code).bind
        fun (_, tail) => ofHexDigits? tail with
    | none => rfl
    | some count =>
      obtain ⟨⟨before, field⟩, cut, read⟩ := Option.bind_eq_some_iff.mp found
      obtain ⟨whole, before_length⟩ := Text.append_of_cutAt? cut
      have size := congrArg Text.byteLength whole
      rw [byte_length_append] at size
      have four : Text.byteLength field = 4 := by omega
      have small := count_bound four read
      dsimp only
      rw [word_small (by omega), Option.bind_some, word_small (by omega), Option.bind_some]
      split
      · rfl
      · have start : difference? (Text.byteLength code) ((count + 2) * 2) =
            some (Text.byteLength code - (count + 2) * 2) := if_pos (by omega)
        have stop : position? code (Text.byteLength code - (count + 2) * 2 + 2) =
            some (Text.byteLength code - (count + 2) * 2 + 2) := if_pos (by omega)
        rw [start, Option.bind_some, stop, Option.bind_some]
        cases Text.cutAt? (Text.byteLength code - (count + 2) * 2) code <;> rfl

/-- Stripping never fails: no difference is below zero, no length is too large, and no cut falls within
a character. -/
theorem strip_defined (policy : StripPolicy) (release : Option Release) (code : List Char) :
    strip? policy release code = some (policy.strip release code) := by
  have length : (match release.bind policy.lengthFor? with
      | some length => some length
      | none => announcedLength? code) = some (policy.stripLength release code) := by
    unfold StripPolicy.stripLength
    cases release.bind policy.lengthFor? with
    | none => exact announced_length code
    | some length => rfl
  unfold strip? StripPolicy.strip dropEnd
  dsimp only
  rw [length, Option.bind_some]
  split
  · rfl
  · have start : difference? (Text.byteLength code) (policy.stripLength release code) =
        some (Text.byteLength code - policy.stripLength release code) := if_pos (by omega)
    rw [start, Option.bind_some]
    cases Text.cutAt? (Text.byteLength code - policy.stripLength release code) code <;> rfl

end Machine

section Metadata
variable {policy : StripPolicy} {release : Release} {rule : StripRule}

/-- The first rule of a policy that a release meets. -/
def Decides (policy : StripPolicy) (release : Release) (rule : StripRule) : Prop :=
  ∃ before after, policy.rules = before ++ rule :: after ∧
    (∀ earlier ∈ before, earlier.requirement.matchesRelease release = false) ∧
    rule.requirement.matchesRelease release = true

theorem length_of_decides (decides : Decides policy release rule) :
    policy.lengthFor? release = some rule.hexLength := by
  obtain ⟨before, after, rules, unmet, met⟩ := decides
  have found : policy.rules.find? (fun rule => rule.requirement.matchesRelease release) =
      some rule := by
    rw [List.find?_eq_some_iff_append]
    exact ⟨met, before, after, rules, fun earlier among => by simp [unmet earlier among]⟩
  rw [StripPolicy.lengthFor?, found, Option.map_some]

/-- Genuine metadata: the header of a map in either case, the rest of the map, and four hexadecimal
digits that write the length of the map in bytes of code. -/
structure Trailer where
  header : List Char
  middle : List Char
  digits : List Char
  opens : header.map Char.toLower ∈ mapHeaders
  four : digits.length = 4
  hexadecimal : ∀ c ∈ digits, IsHex c
  inhabited : 1 ≤ hexNumber digits
  counted : Text.byteLength (header ++ (middle ++ digits)) = 2 * (hexNumber digits + 2)

namespace Trailer

/-- The whole metadata. -/
def text (trailer : Trailer) : List Char := trailer.header ++ (trailer.middle ++ trailer.digits)

/-- What genuine metadata announces. -/
def announcement (trailer : Trailer) : Announcement where
  header := trailer.header
  middle := trailer.middle
  field := trailer.digits
  count := hexNumber trailer.digits
  opens := trailer.opens
  four := (hex_length trailer.hexadecimal).trans trailer.four
  read := number_read.mpr ⟨trailer.digits, List.ne_nil_of_length_eq_add_one trailer.four,
    trailer.hexadecimal, rfl, .inl rfl⟩
  inhabited := trailer.inhabited
  counted := trailer.counted

end Trailer

/-- The metadata of code from a compiler: as long as the first rule says that its release meets, and
genuine if its release is not known. -/
inductive MetadataOf (policy : StripPolicy) : Option Release → List Char → Prop where
  | known {release : Release} {rule : StripRule} {trailer : List Char}
      (decides : Decides policy release rule) (length : Text.byteLength trailer = rule.hexLength) :
      MetadataOf policy (some release) trailer
  | unknown (trailer : Trailer) : MetadataOf policy none trailer.text

/-- What a code ends in is removed if it is as long as it announces to be. -/
theorem strip_announced (policy : StripPolicy) (body : List Char) (announced : Announcement) :
    policy.strip none (body ++ announced.text) = body := by
  have length : policy.stripLength none (body ++ announced.text) =
      Text.byteLength announced.text := length_announced body announced
  rw [StripPolicy.strip, length, drop_after]

theorem strip_metadata {version : Option Release} {trailer : List Char}
    (metadata : MetadataOf policy version trailer) (body : List Char) :
    policy.strip version (body ++ trailer) = body := by
  cases metadata with
  | @known release rule trailer decides length =>
    have stated : policy.stripLength (some release) (body ++ trailer) = Text.byteLength trailer := by
      rw [StripPolicy.stripLength, Option.bind_some, length_of_decides decides, Option.getD_some,
        length]
    rw [StripPolicy.strip, stated, drop_after]
  | unknown trailer => exact strip_announced policy body trailer.announcement

/-- Stripping removes exactly the metadata, so that what comes of a code depends on its body alone.
It comes to a prefix of every code whatsoever, and nothing on the way there can fail. -/
theorem strip_leaves_body (policy : StripPolicy) (version : Option Release) :
    (∀ trailer, MetadataOf policy version trailer →
      ∀ body, policy.strip version (body ++ trailer) = body) ∧
    (∀ first second, MetadataOf policy version first → MetadataOf policy version second →
      ∀ body, policy.strip version (body ++ first) = policy.strip version (body ++ second)) ∧
    ∀ code, strip? policy version code = some (policy.strip version code) ∧
      policy.strip version code <+: code := by
  refine ⟨fun trailer metadata body => strip_metadata metadata body, ?_, fun code => ⟨?_, ?_⟩⟩
  · intro first second metadata metadata' body
    rw [strip_metadata metadata, strip_metadata metadata']
  · exact strip_defined policy version code
  · obtain ⟨removed, whole, -⟩ := dropped (policy.stripLength version code) code
    exact ⟨removed, whole.symm⟩

/-- A body that ends in metadata of its own keeps it, whether the length of what follows is announced
or stated by a rule. -/
theorem body_like_metadata_kept :
    MetadataOf .default none "A2é0002".toList ∧
      StripPolicy.default.strip none ("a1bb0002".toList ++ "A2é0002".toList) = "a1bb0002".toList ∧
      MetadataOf .default (some ⟨0, 4, 21⟩) (List.replicate 86 'e') ∧
      StripPolicy.default.strip (some ⟨0, 4, 21⟩) ("a1bb0002".toList ++ List.replicate 86 'e') =
        "a1bb0002".toList := by
  have hexadecimal : ∀ c ∈ ['0', '0', '0', '2'], IsHex c := List.all_eq_true.mp (by decide)
  have announced : MetadataOf .default none "A2é0002".toList :=
    .unknown ⟨['A', '2'], ['é'], ['0', '0', '0', '2'], by decide, rfl, hexadecimal, by decide,
      by decide⟩
  have decides : Decides .default ⟨0, 4, 21⟩ StripPolicy.builtIn[1] :=
    ⟨StripPolicy.builtIn.take 1, StripPolicy.builtIn.drop 2, rfl, by decide, by decide⟩
  have stated : MetadataOf .default (some ⟨0, 4, 21⟩) (List.replicate 86 'e') :=
    .known decides (by decide)
  exact ⟨announced, (strip_leaves_body .default none).1 _ announced _, stated,
    (strip_leaves_body .default (some ⟨0, 4, 21⟩)).1 _ stated _⟩

end Metadata

end ContractBuild.StrippedCode
