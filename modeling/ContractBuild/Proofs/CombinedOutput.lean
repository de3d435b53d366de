import ContractBuild.Proofs.PathPieces
import ContractBuild.Proofs.PrintedJson
import ContractBuild.Response.Read
import Mathlib.Data.List.DropRight

/-! Reading the output of a compiler inverts its form. The document is found behind whatever text
stands before it, even if this ends in a part of a document's start, and each contract is read with the
texts that were printed for it, in the order of the document. -/
namespace ContractBuild.CombinedOutput
open Json PathPieces PrintedJson Response

section Cutting
variable {marker text before beyond : List Char} {first : Char}

theorem after_iff : Text.after? marker text = some beyond ↔ text = marker ++ beyond := by
  induction marker generalizing text with
  | nil => simp [Text.after?]
  | cons h marker ih =>
    cases text with
    | nil => simp [Text.after?]
    | cons c text =>
      by_cases same : h = c
      · simp [Text.after?, same, ih]
      · simp [Text.after?, same, Ne.symm same]

/-- A text is cut at a marker that follows if the marker is not in the text. The marker cannot start in
the text and end in what follows either, as it has its first character only once. -/
theorem cut_first (once : first ∉ marker) (absent : ¬ first :: marker <:+: before)
    (beyond : List Char) :
    Text.cut? (first :: marker) (before ++ (first :: marker ++ beyond)) = some (before, beyond) := by
  induction before with
  | nil =>
    have here : Text.after? (first :: marker) (first :: (marker ++ beyond)) = some beyond :=
      after_iff.mpr rfl
    simp only [List.nil_append, List.cons_append, Text.cut?, here]
  | cons c before ih =>
    have later : ¬ first :: marker <:+: before := fun inside =>
      absent (inside.trans (List.suffix_cons c before).isInfix)
    have early : Text.after? (first :: marker) (c :: (before ++ (first :: marker ++ beyond))) =
        none := by
      rw [Option.eq_none_iff_forall_ne_some]
      intro rest found
      have whole : (c :: before) ++ (first :: (marker ++ beyond)) = (first :: marker) ++ rest :=
        after_iff.mp found
      rcases List.append_eq_append_iff.mp whole with ⟨left, shape, onward⟩ | ⟨left, shape, -⟩
      · cases left with
        | nil =>
          rw [List.append_nil] at shape
          exact absent (shape ▸ List.infix_rfl)
        | cons x left =>
          obtain ⟨rfl, -⟩ := List.cons.inj onward
          have ends := (List.cons.inj shape).2
          exact once (ends ▸ by simp)
      · exact absent (shape ▸ (List.prefix_append ..).isInfix)
    rw [List.cons_append, Text.cut?, early]
    simp only [ih later, Option.map_some]

theorem after_none (absent : ¬ marker <:+: text) : Text.after? marker text = none := by
  rw [Option.eq_none_iff_forall_ne_some]
  intro beyond found
  exact absent (after_iff.mp found ▸ (List.prefix_append ..).isInfix)

/-- A text is not cut at what does not occur in it. -/
theorem cut_none (absent : ¬ marker <:+: text) : Text.cut? marker text = none := by
  induction text with
  | nil => rw [Text.cut?, after_none absent, Option.map_none]
  | cons c text ih =>
    have later : ¬ marker <:+: text := fun inside =>
      absent (inside.trans (List.suffix_cons c text).isInfix)
    rw [Text.cut?, after_none absent]
    simp only [ih later, Option.map_none]

end Cutting

section Trimming
variable {before inside after : List Char} {first last : Char}

private theorem drop_to (solid : Text.isBlank first = false) (before rest : List Char) :
    (before ++ first :: rest).dropWhile Text.isBlank =
      before.dropWhile Text.isBlank ++ first :: rest := by
  rw [List.dropWhile_append]
  split
  · rename_i none
    rw [List.isEmpty_iff.mp none, List.dropWhile_cons_of_neg (by simp [solid])]
    rfl
  · rfl

/-- Before a text that starts and ends with no blank only blanks are trimmed, and after it everything is
if there are only blanks. -/
theorem trim_around (starts : Text.isBlank first = false) (ends : Text.isBlank last = false)
    (blank : ∀ c ∈ after, Text.isBlank c = true) :
    Text.trim (before ++ (first :: (inside ++ [last])) ++ after) =
      before.dropWhile Text.isBlank ++ first :: (inside ++ [last]) := by
  have behind : after.reverse.dropWhile Text.isBlank = [] := by
    rw [List.dropWhile_eq_nil_iff]
    intro c among
    exact blank c (List.mem_reverse.mp among)
  rw [Text.trim, List.append_assoc, List.cons_append, drop_to starts, Text.trimEnd]
  have reversed : (before.dropWhile Text.isBlank ++ first :: (inside ++ [last] ++ after)).reverse =
      after.reverse ++ last :: (before.dropWhile Text.isBlank ++ first :: inside).reverse := by
    simp
  rw [reversed, drop_to ends, behind]
  simp

theorem trim_of_dropped (text : List Char) :
    Text.trim (text.dropWhile Text.isBlank) = Text.trim text := by
  rw [Text.trim, Text.trim, List.dropWhile_idempotent]

theorem trim_within (text : List Char) : Text.trim text <:+: text := by
  have front : Text.trim text <+: text.dropWhile Text.isBlank := by
    rw [Text.trim, Text.trimEnd, ← List.reverse_suffix, List.reverse_reverse]
    exact List.dropWhile_suffix _
  exact front.isInfix.trans (List.dropWhile_suffix _).isInfix

end Trimming

/-- A contract as a compiler lists it, code and interface as texts in either order. -/
structure Listed where
  qualifier : String
  code : String
  interface : String
  interfaceFirst : Bool

namespace Listed

/-- The fields of a contract. -/
def fields (listed : Listed) : List (String × String) :=
  if listed.interfaceFirst then [("abi", listed.interface), ("bin", listed.code)]
  else [("bin", listed.code), ("abi", listed.interface)]

def value (listed : Listed) : Value :=
  .object (listed.fields.map fun field => (field.1, .string field.2))

/-- What the contract is read as in the document. -/
def tree (listed : Listed) : Tree :=
  spelled (listed.fields.map fun field => (field.1, .string (spelling field.2)))

/-- What the contract is taken for, under its qualified name. -/
def entry (listed : Listed) : String × Contract :=
  (listed.qualifier, ⟨listed.code, .string listed.interface⟩)

end Listed

/-- The document of contracts that a compiler prints, with its version if it tells it. -/
def listing (contracts : List Listed) (version : Option String) : Value :=
  .object (("contracts", .object (contracts.map fun listed => (listed.qualifier, listed.value))) ::
    version.toList.map fun text => ("version", .string text))

/-- What the members of the document are read as. -/
def listingMembers (contracts : List Listed) (version : Option String) : List (String × Tree) :=
  ("contracts", spelled (contracts.map fun listed => (listed.qualifier, listed.tree))) ::
    version.toList.map fun text => ("version", .string (spelling text))

section Documents
variable {contracts : List Listed} {version : Option String}

theorem value_read_as (listed : Listed) : ReadAs listed.value.compact listed.tree := by
  apply object_read_as
  rw [List.forall₂_map_left_iff, List.forall₂_map_right_iff, List.forall₂_same]
  exact fun field _ => ⟨rfl, quoted_read_as field.2⟩

theorem listing_parsed (contracts : List Listed) (version : Option String) :
    Tree.parse? (listing contracts version).compact =
      some (spelled (listingMembers contracts version)) := by
  apply parse_of_read_as
  apply object_read_as
  constructor
  · refine ⟨rfl, object_read_as ?_⟩
    rw [List.forall₂_map_left_iff, List.forall₂_map_right_iff, List.forall₂_same]
    exact fun listed _ => ⟨rfl, value_read_as listed⟩
  · rw [List.forall₂_map_left_iff, List.forall₂_map_right_iff, List.forall₂_same]
    exact fun text _ => ⟨rfl, quoted_read_as text⟩

theorem contract_read (listed : Listed) :
    readContract listed.tree = some ⟨listed.code, .string listed.interface⟩ := by
  have fields : listed.tree.fields? ["bin", "abi"] =
      some [some (.string (spelling listed.code)), some (.string (spelling listed.interface))] := by
    rw [Listed.tree, fields_of_spelled, Listed.fields]
    cases listed.interfaceFirst <;> simp [Tree.field?]
  unfold readContract
  rw [fields]
  simp only [Tree.withDefault?, text_of_spelling, value_of_spelling, Option.bind_eq_bind,
    Option.bind_some]
  rfl

section Listing
variable {α : Type} {key : String} {value : α} {listed entries : List (String × α)}

theorem put_new (new : key ∉ listed.map Prod.fst) :
    putLast key value listed = listed ++ [(key, value)] := by
  induction listed with
  | nil => rfl
  | cons entry listed ih =>
    rw [List.map_cons, List.mem_cons, not_or] at new
    rw [putLast, if_neg (Ne.symm new.1), ih new.2]
    rfl

/-- Entries with different keys are kept as they are listed. -/
theorem put_all (distinct : ((listed ++ entries).map Prod.fst).Nodup) :
    entries.foldl (fun listed entry => putLast entry.1 entry.2 listed) listed = listed ++ entries := by
  induction entries generalizing listed with
  | nil => simp
  | cons entry entries ih =>
    have new : entry.1 ∉ listed.map Prod.fst := by
      intro old
      rw [List.map_append, List.map_cons, List.nodup_append] at distinct
      exact distinct.2.2 _ old _ (List.mem_cons_self ..) rfl
    rw [List.foldl_cons, put_new new, ih (by simpa using distinct), List.append_assoc]
    rfl

end Listing

theorem contracts_read (distinct : (contracts.map Listed.qualifier).Nodup) :
    readContracts (spelled (contracts.map fun listed => (listed.qualifier, listed.tree))) =
      some (contracts.map Listed.entry) := by
  have each : ∀ listed : Listed, ((readContract listed.tree).map fun contract =>
      (listed.qualifier, contract)) = some listed.entry := by
    intro listed
    rw [contract_read, Option.map_some, Listed.entry]
  have members : (contracts.map fun listed => (listed.qualifier, listed.tree)).mapM
      (fun entry => (readContract entry.2).map fun contract => (entry.1, contract)) =
        some (contracts.map Listed.entry) := by
    simp only [List.mapM_map, Function.comp_def, each]
    exact List.mapM_pure
  have distinct' : (([] ++ contracts.map Listed.entry).map Prod.fst).Nodup := by
    simpa [Function.comp_def, Listed.entry] using distinct
  have reading : ∀ entries : List (String × Tree), readContracts (spelled entries) =
      (spelled entries).members?.bind fun members =>
        (members.mapM fun entry =>
          (readContract entry.2).map fun contract => (entry.1, contract)).bind fun contracts =>
            some (contracts.foldl (fun listed entry => putLast entry.1 entry.2 listed) []) :=
    fun _ => rfl
  rw [reading, members_of_spelled, Option.bind_some, members, Option.bind_some]
  exact congrArg some (put_all distinct')

theorem listing_read (distinct : (contracts.map Listed.qualifier).Nodup) :
    readDocument (listing contracts version).compact =
      some ⟨contracts.map Listed.entry, version⟩ := by
  have fields : (spelled (listingMembers contracts version)).fields? ["contracts", "version"] =
      some [some (spelled (contracts.map fun listed => (listed.qualifier, listed.tree))),
        version.map fun text => .string (spelling text)] := by
    rw [fields_of_spelled]
    cases version <;> simp [listingMembers, Tree.field?]
  have told : Tree.withDefault? none readVersion (version.map fun text => .string (spelling text)) =
      some version := by
    cases version with
    | none => rfl
    | some text => exact congrArg (Option.map some) (text_of_spelling text)
  unfold readDocument
  rw [listing_parsed, Option.bind_eq_bind, Option.bind_some, fields]
  simp only [Tree.required?, contracts_read distinct, told, Option.bind_eq_bind, Option.bind_some]
  rfl

/-- The document starts with the marker and ends with its last bracket. -/
theorem listing_shape (contracts : List Listed) (version : Option String) :
    ∃ inside, (listing contracts version).compact = marker ++ inside ++ ['}'] := by
  have start : ∀ (value : Value) (members : List (String × Value)), ∃ rest,
      Value.compactMembers (("contracts", value) :: members) =
        quoted "contracts" ++ ':' :: rest := by
    intro value members
    cases members with
    | nil => exact ⟨_, rfl⟩
    | cons next members => exact ⟨_, List.append_assoc ..⟩
  obtain ⟨rest, shape⟩ := start (.object (contracts.map fun listed =>
    (listed.qualifier, listed.value))) (version.toList.map fun text => ("version", .string text))
  have own : marker = '{' :: (quoted "contracts" ++ [':']) := by decide
  refine ⟨rest, ?_⟩
  rw [listing, Value.compact, shape, own]
  simp

/-- A document that starts with the marker is told from what stands before and after it. -/
theorem marked_split {warning inside blanks : List Char} (unmarked : ¬ marker <:+: warning)
    (blank : ∀ c ∈ blanks, Text.isBlank c = true) :
    splitWarning (warning ++ (marker ++ inside ++ ['}']) ++ blanks) =
      (Text.trim warning, marker ++ inside ++ ['}']) := by
  have starts : marker = '{' :: marker.tail := by decide
  have ends : marker ++ inside ++ ['}'] = '{' :: (marker.tail ++ inside ++ ['}']) := by
    rw [starts]
    rfl
  have trimmed : Text.trim (warning ++ (marker ++ inside ++ ['}']) ++ blanks) =
      warning.dropWhile Text.isBlank ++ (marker ++ (inside ++ ['}'])) := by
    rw [← List.append_assoc marker, ends]
    exact trim_around (by decide) (by decide) blank
  have unmarked' : ¬ marker <:+: warning.dropWhile Text.isBlank := fun found =>
    unmarked (found.trans (List.dropWhile_suffix _).isInfix)
  have once : '{' ∉ marker.tail := by decide
  have cut : Text.cut? marker (warning.dropWhile Text.isBlank ++ (marker ++ (inside ++ ['}']))) =
      some (warning.dropWhile Text.isBlank, inside ++ ['}']) := cut_first once unmarked' _
  simp only [splitWarning, trimmed, cut]
  rw [trim_of_dropped, List.append_assoc]

/-- The document is told from what stands before and after it. -/
theorem listing_split {warning blanks : List Char} (unmarked : ¬ marker <:+: warning)
    (blank : ∀ c ∈ blanks, Text.isBlank c = true) :
    splitWarning (warning ++ (listing contracts version).compact ++ blanks) =
      (Text.trim warning, (listing contracts version).compact) := by
  obtain ⟨inside, shape⟩ := listing_shape contracts version
  rw [shape]
  exact marked_split unmarked blank

end Documents

section Names
variable {qualified last : List Char}

/-- The last segment of a text: what follows its last colon, or all of it if it has none. -/
def LastSegment (qualified last : List Char) : Prop :=
  ':' ∉ last ∧ (qualified = last ∨ ∃ front, qualified = front ++ ':' :: last)

theorem last_segment_exists (qualified : List Char) : ∃ last, LastSegment qualified last := by
  induction qualified with
  | nil => exact ⟨[], by simp, Or.inl rfl⟩
  | cons c qualified ih =>
    obtain ⟨last, bare, rfl | ⟨front, rfl⟩⟩ := ih
    · by_cases colon : c = ':'
      · subst colon
        exact ⟨qualified, bare, Or.inr ⟨[], rfl⟩⟩
      · exact ⟨c :: qualified, by simp [bare, Ne.symm colon], Or.inl rfl⟩
    · exact ⟨last, bare, Or.inr ⟨c :: front, rfl⟩⟩

theorem object_name_of_last (segment : LastSegment qualified last) :
    objectName qualified = Text.trim last := by
  obtain ⟨bare, rfl | ⟨front, rfl⟩⟩ := segment
  · simp [objectName, split_of_not_mem bare]
  · simp [objectName, split_append, split_of_not_mem bare]

end Names

/-- What an object tells of a contract: its name is the last segment of the qualified one, its code is
stripped of its metadata, and all of its texts are trimmed. -/
structure Tells (policy : StripPolicy) (release : Option Release) (listed : Listed)
    (object : CompiledObject) : Prop where
  name : ∃ last, LastSegment listed.qualifier.toList last ∧
    object.name = String.ofList (Text.trim last)
  bytecode : object.bytecode =
    String.ofList (policy.strip release (Text.trim listed.code.toList))
  interface : object.interface = String.ofList (Text.trim listed.interface.toList)

/-- An output in which a document of contracts follows a warning is read: the warning, the version that
the document tells or else the assumed one, and one object for each contract, in the order of the
document. -/
theorem reads_combined_output (reader : OutputReader) (contracts : List Listed)
    (version : Option String) (warning blanks : List Char)
    (distinct : (contracts.map Listed.qualifier).Nodup) (unmarked : ¬ marker <:+: warning)
    (blank : ∀ c ∈ blanks, Text.isBlank c = true) :
    ∃ objects, reader.readAccepted
        (String.ofList (warning ++ (listing contracts version).compact ++ blanks)) =
          .ok ⟨objects, String.ofList (Text.trim warning),
            (version.or reader.assumedVersion).getD "", ""⟩ ∧
      List.Forall₂ (Tells reader.policy
        (Release.ofVersion? ((version.or reader.assumedVersion).getD ""))) contracts objects := by
  have read : reader.readAccepted
      (String.ofList (warning ++ (listing contracts version).compact ++ blanks)) =
        .ok (reader.ofDocument (String.ofList (Text.trim warning))
          ⟨contracts.map Listed.entry, version⟩) := by
    unfold OutputReader.readAccepted
    rw [String.toList_ofList, listing_split unmarked blank]
    simp only [listing_read distinct]
  refine ⟨_, read, ?_⟩
  rw [List.map_map, List.forall₂_map_right_iff, List.forall₂_same]
  intro listed _
  obtain ⟨last, segment⟩ := last_segment_exists listed.qualifier.toList
  exact ⟨⟨last, segment, congrArg String.ofList (object_name_of_last segment)⟩, rfl, rfl⟩

/-- What an object tells is the object, if its texts are known. -/
private theorem told_object {policy : StripPolicy} {release : Option Release} {listed : Listed}
    {object : CompiledObject} (told : Tells policy release listed object) {expected : CompiledObject}
    (name : objectName listed.qualifier.toList = expected.name.toList)
    (bytecode : policy.strip release (Text.trim listed.code.toList) = expected.bytecode.toList)
    (interface : Text.trim listed.interface.toList = expected.interface.toList) :
    object = expected := by
  obtain ⟨⟨last, segment, own⟩, own', own''⟩ := told
  rw [← object_name_of_last segment, name, String.ofList_toList] at own
  rw [bytecode, String.ofList_toList] at own'
  rw [interface, String.ofList_toList] at own''
  obtain ⟨object, code, text⟩ := object
  subst own own' own''
  rfl

/-- A warning that ends in a part of a document's start is told from the document that follows, and the
contracts of this are told in its order, which is not that of their names. -/
theorem partial_marker_kept :
    (OutputReader.mk .default (some "0.4.21")).readAccepted
        (String.ofList ("Unused \x7b\"contracts\"".toList ++
          (listing [⟨"b.sol: D ", " 6060\n", "[]", true⟩, ⟨"lib:a.sol:C", "6001", " [7]", false⟩]
            none).compact ++ ['\n'])) =
      .ok ⟨[⟨"D", "6060", "[]"⟩, ⟨"C", "6001", "[7]"⟩], "Unused \x7b\"contracts\"", "0.4.21", ""⟩ := by
  have unmarked : ¬ marker <:+: "Unused \x7b\"contracts\"".toList := by
    intro inside
    have colon : ':' ∈ "Unused \x7b\"contracts\"".toList := inside.subset (by decide)
    exact absurd colon (by decide)
  have blank : ∀ c ∈ ['\n'], Text.isBlank c = true := by simp [Text.isBlank, Text.blankRanges]
  obtain ⟨objects, read, told⟩ := reads_combined_output ⟨.default, some "0.4.21"⟩
    [⟨"b.sol: D ", " 6060\n", "[]", true⟩, ⟨"lib:a.sol:C", "6001", " [7]", false⟩] none _ _
    (by decide) unmarked blank
  obtain ⟨object, _, first, rest, rfl⟩ := List.forall₂_cons_left_iff.mp told
  obtain ⟨object', _, second, none, rfl⟩ := List.forall₂_cons_left_iff.mp rest
  obtain rfl := List.forall₂_nil_left_iff.mp none
  have shape : object = ⟨"D", "6060", "[]"⟩ :=
    told_object first (by decide) (by decide) (by decide)
  have shape' : object' = ⟨"C", "6001", "[7]"⟩ :=
    told_object second (by decide) (by decide) (by decide)
  have warned : String.ofList (Text.trim "Unused \x7b\"contracts\"".toList) =
      "Unused \x7b\"contracts\"" := by
    decide
  rw [read, shape, shape', warned]
  rfl

end ContractBuild.CombinedOutput
