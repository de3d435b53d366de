import ContractBuild.Proofs.ShownNames
import Mathlib.Data.List.Sort
import Mathlib.Data.Set.List
import Mathlib.Data.String.Basic

/-! The text of a digest is a faithful name for it that keeps the order of digests. The texts that read
as a digest are the spellings of its sixty-four digits in either case, and the digits are ordered as the
bytes are that they write; so the names of contents and the directories of a cache sort as the digests
do, by their characters as well as by their bytes. -/
namespace ContractBuild.DigestNames
open ByteForms CachePlace PathPieces Resolution ShownNames Source

section Reading
variable {c : Char} {text : List Char} {bytes : Bytes} {digest : Digest}

/-- A hexadecimal digit of either case. -/
def IsDigit (c : Char) : Prop := '0' ≤ c ∧ c ≤ '9' ∨ 'a' ≤ c ∧ c ≤ 'f' ∨ 'A' ≤ c ∧ c ≤ 'F'

/-- The form of the texts that write a digest. -/
structure WritesDigest (text : String) : Prop where
  long : text.length = 64
  digits : ∀ c ∈ text.toList, IsDigit c

theorem digit_iff : IsDigit c ↔ ∃ value, Text.hexValue? c = some value := by
  unfold IsDigit Text.hexValue?
  split_ifs <;> simp [*]

/-- A pair of digits is read as the byte whose halves have their values. -/
theorem pair_read {high low : Char} {byte : UInt8} :
    Text.ofHex? (high :: low :: text) = some (byte :: bytes) ↔
      Text.hexValue? high = some (byte.toNat / 16) ∧ Text.hexValue? low = some (byte.toNat % 16) ∧
        Text.ofHex? text = some bytes := by
  rw [Text.ofHex?]
  constructor
  · intro read
    split at read
    · rename_i h l rest first second others
      obtain ⟨rfl, rfl⟩ := List.cons.inj (Option.some.inj read)
      have small := (Text.hexValue?_eq_some_iff.mp first).1
      have small' := (Text.hexValue?_eq_some_iff.mp second).1
      have value : (UInt8.ofNat (16 * h + l)).toNat = 16 * h + l := by
        rw [UInt8.toNat_ofNat']
        omega
      refine ⟨?_, ?_, others⟩
      · rw [first, value]
        exact congrArg some (by omega)
      · rw [second, value]
        exact congrArg some (by omega)
    · cases read
  · rintro ⟨first, second, others⟩
    have value : 16 * (byte.toNat / 16) + byte.toNat % 16 = byte.toNat := Nat.div_add_mod ..
    rw [first, second, others]
    dsimp only
    rw [value, UInt8.ofNat_toNat]

/-- Digits are read as bytes exactly if the bytes are written as the lowercase digits. -/
theorem read_iff : Text.ofHex? text = some bytes ↔ text.map Char.toLower = Text.hex bytes := by
  -- The induction is on the bytes, since two characters are read at a time.
  induction bytes generalizing text with
  | nil =>
    match text with
    | [] => simp [Text.ofHex?, Text.hex]
    | [_] => simp [Text.ofHex?, Text.hex]
    | high :: low :: text =>
      simp only [List.map_cons, Text.hex, List.flatMap_nil, reduceCtorEq, iff_false, Text.ofHex?]
      split <;> simp
  | cons byte bytes ih =>
    have below := byte.toNat_lt
    match text with
    | [] => simp [Text.ofHex?, hex_cons]
    | [_] => simp [Text.ofHex?, hex_cons]
    | high :: low :: text =>
      rw [pair_read, ih, Text.hexValue?_eq_some_iff, Text.hexValue?_eq_some_iff, hex_cons]
      simp only [List.map_cons, List.cons.injEq]
      constructor
      · rintro ⟨⟨-, first⟩, ⟨-, second⟩, others⟩
        exact ⟨first, second, others⟩
      · rintro ⟨first, second, others⟩
        exact ⟨⟨by omega, first⟩, ⟨by omega, second⟩, others⟩

theorem digits_of_read (read : Text.ofHex? text = some bytes) : ∀ c ∈ text, IsDigit c := by
  fun_induction Text.ofHex? text generalizing bytes with
  | case1 => simp
  | case2 => cases read
  | case3 high low text h l rest others second first ih =>
    rw [List.forall_mem_cons, List.forall_mem_cons]
    exact ⟨digit_iff.mpr ⟨h, first⟩, digit_iff.mpr ⟨l, second⟩, ih others⟩
  | case4 => cases read

/-- Digits of an even number are read. -/
theorem read_of_digits {count : Nat} (even : text.length = 2 * count)
    (digits : ∀ c ∈ text, IsDigit c) : ∃ bytes, Text.ofHex? text = some bytes := by
  induction count generalizing text with
  | zero =>
    obtain rfl := List.eq_nil_of_length_eq_zero even
    exact ⟨[], rfl⟩
  | succ count ih =>
    match text with
    | [] => cases even
    | [_] =>
      simp only [List.length_singleton] at even
      omega
    | high :: low :: text =>
      rw [List.forall_mem_cons, List.forall_mem_cons] at digits
      obtain ⟨h, first⟩ := digit_iff.mp digits.1
      obtain ⟨l, second⟩ := digit_iff.mp digits.2.1
      simp only [List.length_cons] at even
      obtain ⟨bytes, others⟩ := ih (by omega) digits.2.2
      exact ⟨_, by rw [Text.ofHex?, first, second, others]⟩

theorem lower_hex (bytes : Bytes) : (Text.hex bytes).map Char.toLower = Text.hex bytes := by
  have each : ∀ n < 16, (Text.hexDigit n).toLower = Text.hexDigit n := by decide
  induction bytes with
  | nil => rfl
  | cons byte bytes ih =>
    have below := byte.toNat_lt
    rw [hex_cons, List.map_cons, List.map_cons, each _ (by omega), each _ (by omega), ih]

theorem parse_read {text : String} :
    Digest.parse text = .ok digest ↔ Text.ofHex? text.toList = some digest.bytes := by
  unfold Digest.parse
  split
  · rename_i bytes read
    rw [read, Option.some.injEq]
    split
    · rw [Except.ok.injEq]
      exact ⟨congrArg Digest.bytes, fun same => by cases digest; subst same; rfl⟩
    · rename_i short
      simp only [reduceCtorEq, false_iff]
      rintro rfl
      exact short digest.length_eq
  · rename_i unread
    simp [unread]

/-- A text is read as the digest whose own text is its lowercase form, and as no other. -/
theorem parse_iff {text : String} :
    Digest.parse text = .ok digest ↔ digest.toHex = text.toLower := by
  have lower : text.toLower.toList = text.toList.map Char.toLower := String.toList_map ..
  rw [parse_read, read_iff, Digest.toHex, ← String.toList_inj, String.toList_ofList, lower, eq_comm]

theorem parse_to_hex (digest : Digest) : Digest.parse digest.toHex = .ok digest := by
  rw [parse_read, Digest.toHex, String.toList_ofList, read_iff, lower_hex]

/-- Exactly the texts of sixty-four digits are read. -/
theorem parses_iff {text : String} :
    (∃ digest, Digest.parse text = .ok digest) ↔ WritesDigest text := by
  constructor
  · rintro ⟨digest, read⟩
    have read := parse_read.mp read
    have length := congrArg List.length (read_iff.mp read)
    rw [List.length_map, length_hex, digest.length_eq, String.length_toList] at length
    exact ⟨length, digits_of_read read⟩
  · rintro ⟨long, digits⟩
    rw [← String.length_toList] at long
    obtain ⟨bytes, read⟩ := read_of_digits (show _ = 2 * 32 from long) digits
    have length := congrArg List.length (read_iff.mp read)
    rw [List.length_map, length_hex, long] at length
    exact ⟨⟨bytes, by omega⟩, parse_read.mpr read⟩

/-- A text that is not read is what the refusal tells. -/
theorem refused_iff {text : String} :
    Digest.parse text = .error ⟨text⟩ ↔ ¬ WritesDigest text := by
  rw [← parses_iff]
  constructor
  · rintro refused ⟨digest, read⟩
    cases refused.symm.trans read
  · intro unread
    unfold Digest.parse at unread ⊢
    split
    · split
      · rename_i bytes read whole
        exact absurd ⟨⟨bytes, whole⟩, by simp [read, whole]⟩ unread
      · rfl
    · rfl

end Reading

section Order
variable {α : Type} [LT α] [Std.Irrefl (· < · : α → α → Prop)] {first second : List α}

/-- What comes before does not change the order. -/
theorem append_lt_iff (front : List α) : front ++ first < front ++ second ↔ first < second := by
  induction front with
  | nil => rfl
  | cons item front ih => rw [List.cons_append, List.cons_append, List.cons_lt_cons_self, ih]

/-- What comes after does not change the order of lists of one length. -/
theorem lt_append_iff (level : first.length = second.length) (rest : List α) :
    first ++ rest < second ++ rest ↔ first < second := by
  induction first generalizing second with
  | nil =>
    obtain rfl := List.eq_nil_of_length_eq_zero level.symm
    exact iff_of_false (List.lt_irrefl _) (List.lt_irrefl _)
  | cons item first ih =>
    cases second with
    | nil => cases level
    | cons other second =>
      rw [List.cons_append, List.cons_append, List.cons_lt_cons_iff, List.cons_lt_cons_iff,
        ih (Nat.succ.inj level)]

/-- A character before another has a form before that of the other, whatever follows the forms. -/
private theorem utf8_char_lt {c d : Char} (before : c < d) (beyond beyond' : Bytes) :
    String.utf8EncodeChar c ++ beyond < String.utf8EncodeChar d ++ beyond' := by
  have before : c.val.toNat < d.val.toNat := before
  have bound : d.val.toNat < 0x110000 := by
    rcases d.valid with low | ⟨-, high⟩ <;> omega
  fun_cases String.utf8EncodeChar c <;> fun_cases String.utf8EncodeChar d <;>
    simp only [List.cons_append, List.nil_append, List.cons_lt_cons_iff, UInt8.lt_iff_toNat_lt,
      UInt8.toNat_ofNat', ← UInt8.toNat_inj]
  case case4.case4 n _ _ _ m _ _ _ =>
    -- Each byte is a digit to the base 64, and its quotient is what the bytes before it write.
    have shift : ∀ n : Nat, n / 4096 = n / 64 / 64 ∧ n / 262144 = n / 64 / 64 / 64 := by omega
    rw [(shift n).1, (shift n).2, (shift m).1, (shift m).2]
    omega
  all_goals omega

/-- Texts have the order of their UTF-8 forms. -/
theorem utf8_lt_iff (first second : List Char) :
    Text.utf8 first < Text.utf8 second ↔ first < second := by
  induction first generalizing second with
  | nil =>
    cases second with
    | nil => exact iff_of_false (List.lt_irrefl _) (List.lt_irrefl _)
    | cons d second =>
      refine iff_of_true ?_ (List.nil_lt_cons ..)
      obtain ⟨byte, rest, form⟩ := List.exists_cons_of_ne_nil (String.utf8EncodeChar_ne_nil (c := d))
      rw [utf8_cons, form]
      exact List.nil_lt_cons ..
  | cons c first ih =>
    cases second with
    | nil => exact iff_of_false (List.not_lt_nil _) (List.not_lt_nil _)
    | cons d second =>
      rw [utf8_cons, utf8_cons, List.cons_lt_cons_iff]
      rcases lt_trichotomy c d with before | rfl | after
      · exact iff_of_true (utf8_char_lt before ..) (.inl before)
      · rw [append_lt_iff, ih]
        simp
      · refine iff_of_false (List.lt_asymm (utf8_char_lt after ..)) ?_
        rintro (before | ⟨rfl, -⟩)
        · exact lt_asymm before after
        · exact lt_irrefl _ after

/-- Bytes have the order of their digits. -/
theorem hex_lt_iff (first second : Bytes) : Text.hex first < Text.hex second ↔ first < second := by
  induction first generalizing second with
  | nil => cases second <;> simp [Text.hex]
  | cons byte first ih =>
    cases second with
    | nil => simp [Text.hex]
    | cons byte' second =>
      have below := byte.toNat_lt
      have below' := byte'.toNat_lt
      have high := digits_alike (byte.toNat / 16) (by omega) (byte'.toNat / 16) (by omega)
      have low := digits_alike (byte.toNat % 16) (by omega) (byte'.toNat % 16) (by omega)
      rw [hex_cons, hex_cons, List.cons_lt_cons_iff, List.cons_lt_cons_iff, List.cons_lt_cons_iff,
        ih, high.1, high.2, low.1, low.2, UInt8.lt_iff_toNat_lt, ← UInt8.toNat_inj]
      by_cases others : first < second
      · simp only [others, and_true]
        omega
      · simp only [others, and_false, or_false]
        omega

/-- Names that sort as the digests do that have them, by their characters and by the bytes of their
UTF-8 forms. -/
def SortAlike (name : Digest → String) : Prop :=
  ∀ a b : Digest, (name a < name b ↔ a.bytes < b.bytes) ∧
    (Text.utf8 (name a).toList < Text.utf8 (name b).toList ↔ a.bytes < b.bytes)

/-- Names sort as the digests do if they are the texts of the digests between two fixed texts. -/
theorem sort_alike {name : Digest → String} (before after : List Char)
    (form : ∀ digest, (name digest).toList = before ++ (digest.toHex.toList ++ after)) :
    SortAlike name := by
  intro a b
  have level : a.toHex.toList.length = b.toHex.toList.length := by
    simp only [Digest.toHex, String.toList_ofList, length_hex, a.length_eq, b.length_eq]
  have texts : name a < name b ↔ a.bytes < b.bytes := by
    rw [String.lt_iff_toList_lt, form, form, append_lt_iff, lt_append_iff level]
    simp only [Digest.toHex, String.toList_ofList, hex_lt_iff]
  exact ⟨texts, (utf8_lt_iff ..).trans (String.lt_iff_toList_lt.symm.trans texts)⟩

theorem to_hex_sort_alike : SortAlike Digest.toHex :=
  sort_alike [] [] fun digest => by rw [List.nil_append, List.append_nil]

theorem file_names_sort_alike (language : Language) : SortAlike (Digest.fileName · language) :=
  sort_alike [] (".".toList ++ language.extension.toList) fun digest => by
    simp only [Digest.fileName, String.toList_append, List.append_assoc, List.nil_append]

end Order

section Maps
variable {α : Type} {key : String} {language : Language}

theorem mem_keys_iff (map : KeyMap α) : key ∈ map.keys ↔ ∃ value, map.get? key = some value := by
  simp only [KeyMap.keys, List.mem_map, Prod.exists, exists_and_right, exists_eq_right,
    get_eq_some_iff]

theorem mem_keys_insert (map : KeyMap α) (other : String) (value : α) :
    key ∈ (map.insert other value).keys ↔ key = other ∨ key ∈ map.keys := by
  rw [mem_keys_iff, mem_keys_iff, get_insert]
  by_cases same : key = other
  · simp [same]
  · simp [same]

theorem mem_keys_of_list (pairs : List (String × α)) :
    key ∈ (KeyMap.ofList pairs).keys ↔ key ∈ pairs.map Prod.fst := by
  have each : ∀ map : KeyMap α,
      key ∈ (pairs.foldl (fun map pair => map.insert pair.1 pair.2) map).keys ↔
        key ∈ map.keys ∨ key ∈ pairs.map Prod.fst := by
    induction pairs with
    | nil => simp
    | cons pair pairs ih =>
      intro map
      rw [List.foldl_cons, ih, mem_keys_insert, List.map_cons, List.mem_cons]
      tauto
  simpa [KeyMap.ofList, KeyMap.empty, KeyMap.keys] using each KeyMap.empty

/-- Maps with the same keys list them alike. -/
theorem keys_eq_of_mem_iff {β : Type} (first : KeyMap α) (second : KeyMap β)
    (same : ∀ key, key ∈ first.keys ↔ key ∈ second.keys) : first.keys = second.keys :=
  (List.pairwise_map.mpr first.ascending).eq_of_mem_iff (List.pairwise_map.mpr second.ascending) same

/-- A digest has the place among digests that its name has among their names. -/
theorem place_named (digest : Digest) (value : α) {entries : List (String × α)}
    {digests : List Digest} (named : entries.map Prod.fst = digests.map (Digest.fileName · language)) :
    (KeyMap.place (digest.fileName language) value entries).map Prod.fst =
      (Digest.insertSorted digest digests).map (Digest.fileName · language) := by
  induction digests generalizing entries with
  | nil =>
    obtain rfl := List.map_eq_nil_iff.mp named
    rfl
  | cons head rest ih =>
    obtain ⟨entry, others, rfl, own, named⟩ := List.map_eq_cons_iff.mp named
    have same : digest.fileName language = entry.1 ↔ digest = head := by
      rw [own]
      exact ⟨file_name_injective, fun same => by rw [same]⟩
    have before : digest.fileName language < entry.1 ↔ digest < head := by
      rw [own]
      exact (file_names_sort_alike language digest head).1
    simp only [KeyMap.place, Digest.insertSorted, same, before]
    split
    · simp [own, named]
    · split
      · rename_i level
        simp [level, named]
      · simp [own, ih named]

/-- The names of sorted digests are the keys of a map. Such keys ascend by themselves, so sorting needs
no proof of its own. -/
theorem sorted_keys (digests : List Digest) (language : Language) :
    ∃ map : KeyMap Unit, map.keys = (Digest.sortUnique digests).map (Digest.fileName · language) ∧
      ∀ key, key ∈ map.keys ↔ key ∈ digests.map (Digest.fileName · language) := by
  induction digests with
  | nil => exact ⟨KeyMap.empty, rfl, fun _ => Iff.rfl⟩
  | cons digest digests ih =>
    obtain ⟨map, keys, members⟩ := ih
    refine ⟨map.insert (digest.fileName language) (), place_named digest () keys, fun key => ?_⟩
    rw [mem_keys_insert, members, List.map_cons, List.mem_cons]

/-- A map whose keys are the names of digests lists them in the order of the digests. -/
theorem keys_of_digests {map : KeyMap α} {digests : List Digest}
    (named : ∀ key, key ∈ map.keys ↔ key ∈ digests.map (Digest.fileName · language)) :
    map.keys = (Digest.sortUnique digests).map (Digest.fileName · language) := by
  obtain ⟨sorted, keys, members⟩ := sorted_keys digests language
  rw [← keys]
  exact keys_eq_of_mem_iff map sorted fun key => (named key).trans (members key).symm

/-- An include map lists the files that are put into it, in whatever order, in the order of their
digests. -/
theorem include_keys_in_order (language : Language) (files : List (Digest × IncludedFile)) :
    (KeyMap.ofList (files.map fun file => (file.1.fileName language, file.2))).keys =
      (Digest.sortUnique (files.map Prod.fst)).map (Digest.fileName · language) := by
  refine keys_of_digests fun key => ?_
  rw [mem_keys_of_list, List.map_map, List.map_map]
  rfl

end Maps

section Bundles
variable {search : Search} {entry : Path} {bundle : Bundle}

/-- A bundle lists its files in the order of their digests, in whatever order they were visited. -/
theorem bundle_in_order (resolved : resolve search entry = .ok bundle) :
    ∃ digests : List Digest, digests.Pairwise (· < ·) ∧
      bundle.includes.keys = digests.map (Digest.fileName · search.language) := by
  have named : bundle.includes.keys ∈ Set.range (List.map (Digest.fileName · search.language)) := by
    rw [Set.range_list_map]
    intro key inside
    obtain ⟨file, listed, rfl⟩ := List.mem_map.mp inside
    obtain ⟨digest, name⟩ := bundle_keys resolved file listed
    exact ⟨digest, name.symm⟩
  obtain ⟨digests, keys⟩ := named
  have ascending : bundle.includes.keys.Pairwise (· < ·) :=
    List.pairwise_map.mpr bundle.includes.ascending
  rw [← keys, List.pairwise_map] at ascending
  exact ⟨digests, ascending.imp fun {a b} => (file_names_sort_alike search.language a b).1.mp,
    keys.symm⟩

end Bundles

section Directories

/-- The path of a directory is the text of its digest after a text that is the same for all. -/
theorem directory_text (cache : Cache) :
    ∃ before, ∀ digest, (cache.directory digest).text = before ++ digest.toHex := by
  have joined : ∀ digest, cache.directory digest =
      if cache.root.text = "" then ⟨digest.toHex⟩
      else if cache.root.text.toList.getLast? = some '/' then ⟨cache.root.text ++ digest.toHex⟩
      else ⟨cache.root.text ++ "/" ++ digest.toHex⟩ := by
    intro digest
    have relative := plain_relative (to_hex_plain digest)
    simp only [Cache.directory, Path.join, relative, Bool.false_eq_true, false_or]
  simp only [joined]
  split
  · exact ⟨"", fun digest => String.empty_append.symm⟩
  · split
    · exact ⟨cache.root.text, fun _ => rfl⟩
    · exact ⟨cache.root.text ++ "/", fun _ => rfl⟩

/-- The directories in a cache sort as the digests do, taken as texts or piece by piece. -/
theorem directories_sort_alike (cache : Cache) :
    SortAlike (fun digest => (cache.directory digest).text) ∧
      ∀ a b, (cache.directory a).pieces < (cache.directory b).pieces ↔ a.bytes < b.bytes := by
  obtain ⟨before, text⟩ := directory_text cache
  refine ⟨sort_alike before.toList [] fun digest => ?_, fun a b => ?_⟩
  · rw [text, String.toList_append, List.append_nil]
  · have pieces : ∀ digest : Digest,
        (cache.directory digest).pieces = steps cache.root ++ [digest.toHex] := by
      intro digest
      have plain := to_hex_plain digest
      rw [Cache.directory, pieces_join _ _ (plain_relative plain), plain_pieces plain]
    rw [pieces, pieces, append_lt_iff, List.cons_lt_cons_iff, ← (to_hex_sort_alike a b).1]
    simp

end Directories

/-- The text of a digest is a faithful name for it that keeps the order of digests. It reads back; the
texts of sixty-four digits of either case are read, each as the digest whose text is its lowercase
form, and any other text is refused as what it is. Different digests give contents different names.
Texts of digests, names of contents and the directories in a cache all sort as the digests do, and an
include map lists the files that are put into it in the order of their digests. -/
theorem digest_text_faithful :
    (∀ digest : Digest, Digest.parse digest.toHex = .ok digest) ∧
    (∀ text : String, ((∃ digest, Digest.parse text = .ok digest) ↔ WritesDigest text) ∧
      (Digest.parse text = .error ⟨text⟩ ↔ ¬ WritesDigest text) ∧
      ∀ digest, Digest.parse text = .ok digest ↔ digest.toHex = text.toLower) ∧
    SortAlike Digest.toHex ∧
    (∀ language, Function.Injective (Digest.fileName · language) ∧
      SortAlike (Digest.fileName · language) ∧
      ∀ files : List (Digest × IncludedFile),
        (KeyMap.ofList (files.map fun file => (file.1.fileName language, file.2))).keys =
          (Digest.sortUnique (files.map Prod.fst)).map (Digest.fileName · language)) ∧
    ∀ cache : Cache, SortAlike (fun digest => (cache.directory digest).text) ∧
      ∀ a b, (cache.directory a).pieces < (cache.directory b).pieces ↔ a.bytes < b.bytes :=
  ⟨parse_to_hex, fun _ => ⟨parses_iff, refused_iff, fun _ => parse_iff⟩, to_hex_sort_alike,
    fun language => ⟨fun _ _ => file_name_injective, file_names_sort_alike language,
      include_keys_in_order language⟩, directories_sort_alike⟩

end ContractBuild.DigestNames
