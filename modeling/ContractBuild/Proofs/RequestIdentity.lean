import ContractBuild.Proofs.ByteForms
import ContractBuild.Request.Basic
import Mathlib.Data.Set.Function

/-! A request is known by its digest. The bytes that the digest is taken of are fields that tell
their own length, so no byte can move from one field into another, and different requests have
different bytes. What is left to chance is only the hash. -/
namespace ContractBuild.RequestIdentity
open ByteForms Source

/-- A form of values that tells where it ends: of the values admitted, no two start the same bytes,
whatever follows them. -/
def SelfDelimiting {α : Type} (admitted : α → Prop) (form : α → Bytes) : Prop :=
  ∀ ⦃first second : α⦄ ⦃after beyond : Bytes⦄, admitted first → admitted second →
    form first ++ after = form second ++ beyond → first = second ∧ after = beyond

/-- A count that fits in the eight bytes of a length. -/
def Countable (count : Nat) : Prop := count < Bytes.capacity 8

/-- A text whose UTF-8 form has a length that fits. -/
def TextFits (text : String) : Prop := Countable (Text.utf8 text.toList).length

/-- A file of a bundle, under its name, all of whose lengths fit. -/
def FileFits (entry : String × IncludedFile) : Prop :=
  TextFits entry.1 ∧ Countable entry.2.objectNames.length ∧
    (∀ name ∈ entry.2.objectNames, TextFits name) ∧ TextFits entry.2.script

/-- A request all of whose lengths fit in eight bytes. -/
structure RequestFits (request : Request) : Prop where
  libraries : TextFits request.libraries
  entry : TextFits request.entry
  size : Countable request.includes.size
  files : ∀ entry ∈ request.includes.entries, FileFits entry

instance (count : Nat) : Decidable (Countable count) := inferInstanceAs (Decidable (count < _))

instance (text : String) : Decidable (TextFits text) := inferInstanceAs (Decidable (Countable _))

instance (entry : String × IncludedFile) : Decidable (FileFits entry) :=
  inferInstanceAs (Decidable (_ ∧ _ ∧ _ ∧ _))

instance (request : Request) : Decidable (RequestFits request) :=
  decidable_of_iff (TextFits request.libraries ∧ TextFits request.entry ∧
      Countable request.includes.size ∧ ∀ entry ∈ request.includes.entries, FileFits entry)
    ⟨fun ⟨libraries, entry, size, files⟩ => ⟨libraries, entry, size, files⟩,
      fun fits => ⟨fits.libraries, fits.entry, fits.size, fits.files⟩⟩

section Forms
variable {α β : Type} {admitted : α → Prop} {form : α → Bytes}

/-- Forms of one width delimit themselves if they tell their values apart. -/
theorem fixed_width_delimits {width : Nat} (wide : ∀ value, (form value).length = width)
    (apart : ∀ first second, admitted first → admitted second → form first = form second →
      first = second) : SelfDelimiting admitted form := by
  intro first second after beyond fits fits' same
  obtain ⟨forms, rest⟩ := List.append_inj same ((wide first).trans (wide second).symm)
  exact ⟨apart first second fits fits' forms, rest⟩

/-- A form of a view delimits the values that the view tells apart. -/
theorem view_delimits (view : β → α) (delimits : SelfDelimiting admitted form)
    (apart : Function.Injective view) :
    SelfDelimiting (fun value => admitted (view value)) (fun value => form (view value)) := by
  intro first second after beyond fits fits' same
  obtain ⟨views, rest⟩ := delimits fits fits' same
  exact ⟨apart views, rest⟩

/-- Items of the same number, one after the other, delimit themselves if each does. -/
theorem items_delimit (delimits : SelfDelimiting admitted form) (first second : List α)
    {after beyond : Bytes} (count : first.length = second.length)
    (fits : ∀ item ∈ first, admitted item) (fits' : ∀ item ∈ second, admitted item)
    (same : first.flatMap form ++ after = second.flatMap form ++ beyond) :
    first = second ∧ after = beyond := by
  induction first generalizing second with
  | nil =>
    cases second with
    | nil => exact ⟨rfl, by simpa using same⟩
    | cons _ _ => simp at count
  | cons head rest ih =>
    cases second with
    | nil => simp at count
    | cons head' rest' =>
      simp only [List.flatMap_cons, List.append_assoc] at same
      obtain ⟨rfl, tails⟩ := delimits (fits head (by simp)) (fits' head' (by simp)) same
      obtain ⟨rfl, left⟩ := ih rest' (by simpa using count)
        (fun item inside => fits item (by simp [inside]))
        (fun item inside => fits' item (by simp [inside])) tails
      exact ⟨rfl, left⟩

end Forms

theorem length_field_delimits : SelfDelimiting Countable Request.lengthField :=
  fixed_width_delimits (Bytes.length_littleEndian 8)
    fun _ _ fits fits' same => little_endian_injective fits fits' same

theorem field_delimits :
    SelfDelimiting (fun bytes : Bytes => Countable bytes.length) Request.field := by
  intro first second after beyond fits fits' same
  simp only [Request.field, List.append_assoc] at same
  obtain ⟨length, same⟩ := length_field_delimits fits fits' same
  exact List.append_inj same length

theorem text_field_delimits : SelfDelimiting TextFits Request.textField :=
  view_delimits (fun text : String => Text.utf8 text.toList) field_delimits
    fun _ _ same => String.toList_inj.mp (utf8_injective same)

/-- The form of an included file delimits itself: its name, the counted names of its objects and
its script are each delimited. -/
theorem file_delimits :
    SelfDelimiting FileFits (fun entry => Request.encodeFile entry.1 entry.2) := by
  rintro ⟨key, names, script⟩ ⟨key', names', script'⟩ after beyond
    ⟨keyFits, counted, namesFit, scriptFits⟩ ⟨keyFits', counted', namesFit', scriptFits'⟩ same
  simp only [Request.encodeFile, List.append_assoc] at same
  obtain ⟨keys, same⟩ := text_field_delimits keyFits keyFits' same
  obtain ⟨count, same⟩ := length_field_delimits counted counted' same
  obtain ⟨objects, same⟩ := items_delimit text_field_delimits names names' count namesFit namesFit'
    same
  obtain ⟨scripts, rest⟩ := text_field_delimits scriptFits scriptFits' same
  dsimp only at keys
  subst keys objects scripts
  exact ⟨rfl, rest⟩

private theorem tag_fits (language : Language) : TextFits language.tag := by
  cases language
  simp [TextFits, Countable, Language.tag, Text.utf8, Bytes.capacity, Char.utf8Size]

private theorem tag_injective : Function.Injective Language.tag := by
  intro first second _
  cases first
  cases second
  rfl

private theorem switch_delimits :
    SelfDelimiting (fun _ : Bool => True)
      (fun switch => Request.field [if switch then 1 else 0]) := by
  intro first second after beyond _ _ same
  obtain ⟨bytes, rest⟩ := field_delimits (by simp [Countable, Bytes.capacity])
    (by simp [Countable, Bytes.capacity]) same
  refine ⟨?_, rest⟩
  cases first <;> cases second <;> simp at bytes <;> rfl

/-- Requests that fit are told apart by the bytes that their digests are taken of. -/
theorem encode_injective_of_fits {first second : Request} (fits : RequestFits first)
    (fits' : RequestFits second) (same : first.encode = second.encode) : first = second := by
  obtain ⟨language, optimize, libraries, entry, ⟨entries, ascending⟩⟩ := first
  obtain ⟨language', optimize', libraries', entry', ⟨entries', ascending'⟩⟩ := second
  have same : _ ++ [] = _ ++ [] := congrArg (· ++ []) same
  simp only [Request.encode, KeyMap.size, List.append_assoc] at same
  obtain ⟨tags, same⟩ := text_field_delimits (tag_fits language) (tag_fits language') same
  obtain ⟨switches, same⟩ := switch_delimits trivial trivial same
  obtain ⟨linked, same⟩ := text_field_delimits fits.libraries fits'.libraries same
  obtain ⟨entered, same⟩ := text_field_delimits fits.entry fits'.entry same
  obtain ⟨count, same⟩ := length_field_delimits fits.size fits'.size same
  obtain ⟨files, -⟩ := items_delimit file_delimits entries entries' count fits.files fits'.files same
  have languages := tag_injective tags
  dsimp only at linked entered
  subst languages switches linked entered files
  rfl

/-- The hash gives different digests to different contents of a set. -/
def Distinguishes (contents : Set Bytes) : Prop := Set.InjOn Digest.ofContent contents

/-- A request is known by its bytes, and by its digest as far as the hash tells its bytes from those
of the other requests: no shift of bytes between fields, names, scripts or files makes one request
pass for another. -/
theorem request_known_by_digest (first second : Request) (fits : RequestFits first)
    (fits' : RequestFits second) :
    (first.encode = second.encode ↔ first = second) ∧
      (Distinguishes {first.encode, second.encode} →
        (first.digest = second.digest ↔ first = second)) := by
  have bytes : first.encode = second.encode → first = second :=
    encode_injective_of_fits fits fits'
  refine ⟨⟨bytes, congrArg Request.encode⟩, fun apart => ⟨fun same => ?_, congrArg _⟩⟩
  exact bytes (apart (Set.mem_insert ..) (Set.mem_insert_of_mem _ rfl) same)

/-- A request of one short file that declares objects of these names. -/
def declaring (names : List String) : Request where
  language := .solidity
  optimize := false
  libraries := ""
  entry := "a.sol"
  includes := KeyMap.empty.insert "a.sol" ⟨names, "b"⟩

/-- One name cut in two is another request, with other bytes and another digest. -/
theorem cut_name_known_by_digest :
    RequestFits (declaring ["cd"]) ∧ RequestFits (declaring ["c", "d"]) ∧
      (declaring ["cd"]).encode ≠ (declaring ["c", "d"]).encode ∧
      (declaring ["cd"]).digest ≠ (declaring ["c", "d"]).digest := by
  have fits : RequestFits (declaring ["cd"]) := by decide
  have fits' : RequestFits (declaring ["c", "d"]) := by decide
  have different : declaring ["cd"] ≠ declaring ["c", "d"] := by decide
  have known := request_known_by_digest (declaring ["cd"]) (declaring ["c", "d"]) fits fits'
  have apart : Distinguishes {(declaring ["cd"]).encode, (declaring ["c", "d"]).encode} := by
    have hashes : (declaring ["cd"]).digest ≠ (declaring ["c", "d"]).digest := by decide +kernel
    rintro _ (rfl | rfl) _ (rfl | rfl) same
    · rfl
    · exact absurd same hashes
    · exact absurd same.symm hashes
    · rfl
  exact ⟨fits, fits', fun same => different (known.1.mp same),
    fun same => different ((known.2 apart).mp same)⟩

end ContractBuild.RequestIdentity
