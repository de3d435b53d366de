import ContractBuild.Proofs.CombinedOutput
import ContractBuild.Proofs.ReadValues

/-! Compilers list the interface of a contract as a value of their document or as a text that writes
the value. Both come to the same response, whatever else the document holds: what is read of it around
an interface does not depend on the interface, and the value and the text are shown alike. -/
namespace ContractBuild.InterfaceForms
open Json CombinedOutput PrintedJson ReadValues Response

section Lists
variable {α β : Type} {f : α → Option β}

/-- What is read around a member of a list does not depend on the member. -/
theorem read_around (f : α → Option β) (front back : List α) :
    ∃ told : Option (List β × List β),
      (∀ x, (front ++ x :: back).mapM f =
        told.bind fun around => (f x).map fun y => around.1 ++ y :: around.2) ∧
      ∀ around, told = some around → back.mapM f = some around.2 := by
  refine ⟨(front.mapM f).bind fun before => (back.mapM f).map fun behind => (before, behind),
    fun x => ?_, ?_⟩
  · rw [List.mapM_append, List.mapM_cons]
    cases front.mapM f <;> cases f x <;> cases back.mapM f <;> rfl
  · rintro around told
    obtain ⟨before, -, told⟩ := Option.bind_eq_some_iff.mp told
    obtain ⟨behind, read, rfl⟩ := Option.map_eq_some_iff.mp told
    exact read

theorem read_from {list : List α} {others : List β} (read : list.mapM f = some others) :
    ∀ b ∈ others, ∃ a ∈ list, f a = some b := by
  induction list generalizing others with
  | nil =>
    cases read
    simp
  | cons a list ih =>
    rw [List.mapM_cons] at read
    obtain ⟨first, own, read⟩ := Option.bind_eq_some_iff.mp read
    obtain ⟨rest, onward, same⟩ := Option.bind_eq_some_iff.mp read
    cases same
    rw [List.forall_mem_cons]
    refine ⟨⟨a, by simp, own⟩, fun b among => ?_⟩
    obtain ⟨source, listed, gives⟩ := ih onward b among
    exact ⟨source, List.mem_cons_of_mem _ listed, gives⟩

end Lists

/-- A record of a document around the place of one of its fields: an object, where the field has its
key, or an array, where it has its position. -/
inductive RecordFrame where
  | object (front : List (List Char × Tree)) (key : List Char) (back : List (List Char × Tree))
  | array (front back : List Tree)

namespace RecordFrame

/-- The record with a field in its place. -/
def fill (tree : Tree) : RecordFrame → Tree
  | object front key back => .object (front ++ (key, tree) :: back)
  | array front back => .array (front ++ tree :: back)

/-- The place is that of the field of a name. -/
def Opens (names : List String) (name : String) : RecordFrame → Prop
  | object _ key _ => unescape key = some name.toList
  | array front _ => names[front.length]? = some name

end RecordFrame

/-- A member of an object with its key as text. -/
def memberOf (raw : List Char × Tree) : Option (String × Tree) :=
  (unescape raw.1).map fun key => (String.ofList key, raw.2)

/-- A contract that is listed as a member. -/
def entryOf (member : String × Tree) : Option (String × Contract) :=
  (readContract member.2).map fun contract => (member.1, contract)

section Fields
variable {front back : List (String × Tree)} {tree : Tree} {name other : String}

private theorem field_own : Tree.field? (front ++ (name, tree) :: back) name =
    if (front ++ back).filter (fun member => member.1 = name) = [] then some (some tree)
    else none := by
  unfold Tree.field?
  rw [List.filter_append, List.filter_append, List.filter_cons_of_pos (by simp)]
  generalize front.filter (fun member => member.1 = name) = before
  generalize back.filter (fun member => member.1 = name) = behind
  cases before with
  | nil => cases behind <;> simp
  | cons _ before => cases before <;> simp

private theorem field_other (differs : name ≠ other) :
    Tree.field? (front ++ (name, tree) :: back) other = Tree.field? (front ++ back) other := by
  unfold Tree.field?
  rw [List.filter_append, List.filter_append, List.filter_cons_of_neg (by simp [differs])]

/-- What the members of an object give for two names is the member of one name, and the same for the
other whatever that member is. -/
private theorem fields_told {first second : String} (two : first ≠ second)
    (among : name = first ∨ name = second) (front back : List (String × Tree)) :
    ∃ told : Option (Option Tree), ∀ tree,
      [first, second].mapM (Tree.field? (front ++ (name, tree) :: back)) =
        told.map fun other => if name = first then [some tree, other] else [other, some tree] := by
  have both : ∀ members, [first, second].mapM (Tree.field? members) =
      (Tree.field? members first).bind fun one =>
        (Tree.field? members second).map fun next => [one, next] := by
    intro members
    rw [List.mapM_cons, List.mapM_cons, List.mapM_nil]
    cases Tree.field? members first <;> cases Tree.field? members second <;> rfl
  by_cases once : (front ++ back).filter (fun member => member.1 = name) = []
  · rcases among with rfl | rfl
    · refine ⟨Tree.field? (front ++ back) second, fun tree => ?_⟩
      rw [both, field_own, if_pos once, field_other two, Option.bind_some]
      simp
    · refine ⟨Tree.field? (front ++ back) first, fun tree => ?_⟩
      rw [both, field_own, if_pos once, field_other two.symm]
      simp only [if_neg two.symm]
      cases Tree.field? (front ++ back) first <;> rfl
  · -- A name that is given again is refused, whatever is given.
    refine ⟨none, fun tree => ?_⟩
    have none : Tree.field? (front ++ (name, tree) :: back) name = none := by
      rw [field_own, if_neg once]
    rcases among with rfl | rfl
    · rw [both, none]
      rfl
    · rw [both, none]
      cases Tree.field? (front ++ (name, tree) :: back) first <;> rfl

/-- What a record gives for its other field does not depend on the field in its place. -/
theorem fields_around {first second : String} (two : first ≠ second) (frame : RecordFrame)
    (opens : frame.Opens [first, second] name) (among : name = first ∨ name = second) :
    ∃ told : Option (Option Tree), ∀ tree, (frame.fill tree).fields? [first, second] =
      told.map fun other => if name = first then [some tree, other] else [other, some tree] := by
  cases frame with
  | object front key back =>
    have keyed : unescape key = some name.toList := opens
    obtain ⟨told, read, -⟩ := read_around memberOf front back
    have fields : ∀ tree, (Tree.object (front ++ (key, tree) :: back)).fields? [first, second] =
        told.bind fun around =>
          [first, second].mapM (Tree.field? (around.1 ++ (name, tree) :: around.2)) := by
      intro tree
      have members := read (key, tree)
      rw [memberOf, keyed, Option.map_some, String.ofList_toList] at members
      refine (congrArg (Option.bind · _) members).trans ?_
      cases told <;> rfl
    cases told with
    | none => exact ⟨none, fields⟩
    | some around =>
      obtain ⟨told, other⟩ := fields_told two among around.1 around.2
      exact ⟨told, fun tree => (fields tree).trans (other tree)⟩
  | array front back =>
    have placed : [first, second][front.length]? = some name := opens
    rcases front with - | ⟨given, - | ⟨further, front⟩⟩
    · obtain rfl : first = name := Option.some.inj placed
      rcases back with - | ⟨other, - | ⟨further, back⟩⟩
      · exact ⟨some none, fun tree => by simp [RecordFrame.fill, Tree.fields?]⟩
      · exact ⟨some (some other), fun tree => by simp [RecordFrame.fill, Tree.fields?]⟩
      · exact ⟨none, fun tree => by simp [RecordFrame.fill, Tree.fields?]⟩
    · obtain rfl : second = name := Option.some.inj placed
      cases back with
      | nil => exact ⟨some (some given), fun tree => by
          simp [RecordFrame.fill, Tree.fields?, two.symm]⟩
      | cons other back => exact ⟨none, fun tree => by simp [RecordFrame.fill, Tree.fields?]⟩
    · cases placed

end Fields

/-- The document that a tree writes. -/
def documentOf (tree : Tree) : Option Document :=
  match tree.fields? ["contracts", "version"] with
  | some [contracts, version] => do
    return {
      contracts := ← Tree.required? readContracts contracts
      version := ← Tree.withDefault? none readVersion version }
  | _ => none

theorem document_read (text : List Char) :
    readDocument text = (Tree.parse? text).bind documentOf := rfl

/-- The value of a tree in the place of an interface. -/
def interfaceOf (tree : Tree) : Option Value := Value.ofTree? (Value.maxDepth - interfaceDepth) tree

/-- Everything in a document but the interface of one contract. -/
structure Surroundings where
  document : RecordFrame
  opensContracts : document.Opens ["contracts", "version"] "contracts"
  earlier : List (List Char × Tree)
  /-- The qualified name of the contract as it is spelled. -/
  key : List Char
  name : String
  named : unescape key = some name.toList
  later : List (List Char × Tree)
  contract : RecordFrame
  opensInterface : contract.Opens ["bin", "abi"] "abi"

namespace Surroundings

/-- The document with an interface. -/
def fill (s : Surroundings) (interface : Tree) : Tree :=
  s.document.fill (.object (s.earlier ++ (s.key, s.contract.fill interface) :: s.later))

/-- The document is one of contracts, though it may say nothing of the interface. -/
def Complete (s : Surroundings) : Prop := (documentOf (s.fill .null)).isSome

/-- The contract is not listed again. -/
def Last (s : Surroundings) : Prop := ∀ member ∈ s.later, unescape member.1 ≠ some s.name.toList

end Surroundings

/-- What is read of the contracts of a document around the interface of one of them. -/
structure Outline where
  earlier : List (String × Contract)
  code : String
  later : List (String × Contract)

/-- Entries under their keys, each with the last value listed for it. -/
def collect {α : Type} (entries : List (String × α)) : List (String × α) :=
  entries.foldl (fun listed entry => putLast entry.1 entry.2 listed) []

/-- The contracts with an interface for the one of a name. -/
def Outline.contracts (outline : Outline) (name : String) (interface : Value) :
    List (String × Contract) :=
  collect (outline.earlier ++ (name, ⟨outline.code, interface⟩) :: outline.later)

section Outlines
variable {tree : Tree} {v : Value}

theorem contract_around (frame : RecordFrame) (opens : frame.Opens ["bin", "abi"] "abi") :
    ∃ code : Option String, ∀ tree v, interfaceOf tree = some v →
      readContract (frame.fill tree) = code.map fun code => ⟨code, v⟩ := by
  obtain ⟨told, fields⟩ := fields_around (by decide) frame opens (.inr rfl)
  refine ⟨told.bind (Tree.withDefault? "" Tree.text?), fun tree v read => ?_⟩
  have value : Tree.withDefault? .null
      (Value.ofTree? (Value.maxDepth - interfaceDepth)) (some tree) = some v := read
  unfold readContract
  rw [fields]
  cases told with
  | none => rfl
  | some other =>
    simp only [Option.map_some, Option.bind_some, if_neg (show "abi" ≠ "bin" by decide), value]
    cases Tree.withDefault? "" Tree.text? other <;> rfl

/-- What is read of the other contracts does not depend on the interface of one, and a contract that is
not listed again is not among the later ones. -/
theorem contracts_around (s : Surroundings) : ∃ told : Option Outline,
    (∀ tree v, interfaceOf tree = some v →
      readContracts (.object (s.earlier ++ (s.key, s.contract.fill tree) :: s.later)) =
        told.map fun outline => outline.contracts s.name v) ∧
    (s.Last → ∀ outline, told = some outline → ∀ entry ∈ outline.later, entry.1 ≠ s.name) := by
  obtain ⟨code, contract⟩ := contract_around s.contract s.opensInterface
  obtain ⟨members, keys, keysLater⟩ := read_around memberOf s.earlier s.later
  have reading : ∀ raws, readContracts (.object raws) =
      (raws.mapM memberOf).bind fun members =>
        (members.mapM entryOf).bind fun entries => some (collect entries) :=
    fun _ => rfl
  cases members with
  | none =>
    refine ⟨none, fun tree v _ => ?_, by simp⟩
    rw [reading, keys]
    rfl
  | some around =>
    obtain ⟨entries, values, valuesLater⟩ := read_around entryOf around.1 around.2
    refine ⟨entries.bind fun around => code.map fun code => ⟨around.1, code, around.2⟩,
      fun tree v read => ?_, fun last outline told entry among => ?_⟩
    · have own : memberOf (s.key, s.contract.fill tree) = some (s.name, s.contract.fill tree) := by
        rw [memberOf, s.named, Option.map_some, String.ofList_toList]
      have contract := contract tree v read
      rw [reading, keys, own, Option.bind_some, Option.map_some, Option.bind_some, values, entryOf,
        contract]
      cases entries <;> cases code <;> rfl
    · obtain ⟨entries, known, told⟩ := Option.bind_eq_some_iff.mp told
      obtain ⟨_, _, rfl⟩ := Option.map_eq_some_iff.mp told
      -- An entry among the later ones comes of a contract listed later, under the same name.
      obtain ⟨member, listed, own⟩ := read_from (valuesLater entries known) entry among
      obtain ⟨raw, written, spelled⟩ := read_from (keysLater around rfl) member listed
      obtain ⟨_, _, rfl⟩ := Option.map_eq_some_iff.mp own
      obtain ⟨key, stands, rfl⟩ := Option.map_eq_some_iff.mp spelled
      intro same
      have same : String.ofList key = s.name := same
      exact last raw written (by rw [stands, ← same, String.toList_ofList])

/-- What is read of a document around the interface of one contract does not depend on it. -/
theorem document_around (s : Surroundings) : ∃ told : Option (Outline × Option String),
    (∀ tree v, interfaceOf tree = some v → documentOf (s.fill tree) =
      told.map fun (outline, version) => ⟨outline.contracts s.name v, version⟩) ∧
    (s.Last → ∀ outline version, told = some (outline, version) →
      ∀ entry ∈ outline.later, entry.1 ≠ s.name) := by
  obtain ⟨fields, given⟩ := fields_around (by decide) s.document s.opensContracts (.inl rfl)
  obtain ⟨outline, contracts, last⟩ := contracts_around s
  refine ⟨fields.bind fun other => outline.bind fun outline =>
    (Tree.withDefault? none readVersion other).map fun version => (outline, version),
    fun tree v read => ?_, fun final around version told => ?_⟩
  · unfold documentOf Surroundings.fill
    rw [given]
    cases fields with
    | none => rfl
    | some other =>
      have listed : Tree.required? readContracts
          (some (.object (s.earlier ++ (s.key, s.contract.fill tree) :: s.later))) =
            outline.map fun outline => outline.contracts s.name v := contracts tree v read
      simp only [Option.map_some, Option.bind_some, if_pos, listed]
      cases outline <;> cases Tree.withDefault? none readVersion other <;> rfl
  · obtain ⟨_, _, told⟩ := Option.bind_eq_some_iff.mp told
    obtain ⟨_, known, told⟩ := Option.bind_eq_some_iff.mp told
    obtain ⟨_, _, same⟩ := Option.map_eq_some_iff.mp told
    cases same
    exact last final around known

end Outlines

section Collecting
variable {α β : Type} {key : String} {value : α} {listed earlier later : List (String × α)}
  {entry : String × α}

theorem put_own : (key, value) ∈ putLast key value listed := by
  induction listed with
  | nil => simp [putLast]
  | cons entry listed ih =>
    rw [putLast]
    split
    · exact List.mem_cons_self ..
    · exact List.mem_cons_of_mem _ ih

theorem put_kept (among : entry ∈ listed) (differs : entry.1 ≠ key) :
    entry ∈ putLast key value listed := by
  induction listed with
  | nil => cases among
  | cons head listed ih =>
    rw [putLast]
    cases among with
    | head =>
      rw [if_neg differs]
      exact List.mem_cons_self ..
    | tail _ among =>
      split
      · exact List.mem_cons_of_mem _ among
      · exact List.mem_cons_of_mem _ (ih among)

/-- The value that is listed last for a key is the key's. -/
theorem collect_last (last : ∀ entry ∈ later, entry.1 ≠ key) :
    (key, value) ∈ collect (earlier ++ (key, value) :: later) := by
  have kept : ∀ listed, (key, value) ∈ listed →
      (key, value) ∈ later.foldl (fun listed entry => putLast entry.1 entry.2 listed) listed := by
    induction later with
    | nil => exact fun _ among => among
    | cons entry later ih =>
      rw [List.forall_mem_cons] at last
      exact fun listed among => ih last.2 _ (put_kept among (Ne.symm last.1))
  rw [collect, List.foldl_append, List.foldl_cons]
  exact kept _ put_own

theorem put_map (g : α → β) (key : String) (value : α) (listed : List (String × α)) :
    (putLast key value listed).map (Prod.map id g) =
      putLast key (g value) (listed.map (Prod.map id g)) := by
  induction listed with
  | nil => rfl
  | cons entry listed ih =>
    rw [putLast, List.map_cons, putLast]
    by_cases same : entry.1 = key
    · rw [if_pos same, if_pos (show (Prod.map id g entry).1 = key from same)]
      rfl
    · rw [if_neg same, if_neg (show (Prod.map id g entry).1 ≠ key from same), List.map_cons, ih]

/-- Entries are collected by their keys alone. -/
theorem collect_map (g : α → β) (entries : List (String × α)) :
    (collect entries).map (Prod.map id g) = collect (entries.map (Prod.map id g)) := by
  have onward : ∀ listed, (entries.foldl (fun listed entry => putLast entry.1 entry.2 listed)
      listed).map (Prod.map id g) =
        (entries.map (Prod.map id g)).foldl (fun listed entry => putLast entry.1 entry.2 listed)
          (listed.map (Prod.map id g)) := by
    induction entries with
    | nil => exact fun _ => rfl
    | cons entry entries ih =>
      intro listed
      rw [List.foldl_cons, ih, put_map]
      rfl
  exact onward []

end Collecting

section Responses
variable {v v' : Value}

/-- What a response shows of a contract. -/
def shown (contract : Contract) : String × List Char :=
  (contract.code, interfaceText contract.interface)

/-- Documents of whose contracts the same is shown come to the same response. -/
theorem response_of_shown (reader : OutputReader) (warning : String) (version : Option String)
    {contracts contracts' : List (String × Contract)}
    (same : contracts.map (Prod.map id shown) = contracts'.map (Prod.map id shown)) :
    reader.ofDocument warning ⟨contracts, version⟩ =
      reader.ofDocument warning ⟨contracts', version⟩ := by
  have objects : ∀ contracts, (reader.ofDocument warning ⟨contracts, version⟩).objects =
      (contracts.map (Prod.map id shown)).map fun entry : String × String × List Char => {
        name := String.ofList (objectName entry.1.toList)
        bytecode := String.ofList (reader.policy.strip
          (Release.ofVersion? ((version.or reader.assumedVersion).getD ""))
          (Text.trim entry.2.1.toList))
        interface := String.ofList entry.2.2 } := by
    intro contracts
    rw [List.map_map]
    rfl
  have listed := (objects contracts).trans ((congrArg _ same).trans (objects contracts').symm)
  exact congrArg (fun objects => (⟨objects, _, _, _⟩ : Response)) listed

theorem outline_shown (outline : Outline) (name : String) (same : interfaceText v = interfaceText v') :
    (outline.contracts name v).map (Prod.map id shown) =
      (outline.contracts name v').map (Prod.map id shown) := by
  rw [Outline.contracts, Outline.contracts, collect_map, collect_map, List.map_append,
    List.map_append, List.map_cons, List.map_cons]
  simp only [Prod.map, shown, same]

end Responses

section Outputs
variable {output : String} {warning : List Char} {document : Tree}

/-- An output shows a document: behind a warning and from the first start of a document in the output
on, or alone if no document starts there as they usually do. -/
inductive Shows (output : String) (document : Tree) : (warning : List Char) → Prop where
  | behind (before inside blanks : List Char)
      (whole : output.toList = before ++ (marker ++ inside ++ ['}']) ++ blanks)
      (unmarked : ¬ marker <:+: before) (blank : ∀ c ∈ blanks, Text.isBlank c = true)
      (written : Tree.parse? (marker ++ inside ++ ['}']) = some document) :
      Shows output document (Text.trim before)
  | alone (unmarked : ¬ marker <:+: output.toList)
      (written : Tree.parse? (Text.trim output.toList) = some document) : Shows output document []

theorem shown_split (shows : Shows output document warning) :
    ∃ payload, splitWarning output.toList = (warning, payload) ∧
      Tree.parse? payload = some document := by
  cases shows with
  | behind before inside blanks whole unmarked blank written =>
    exact ⟨_, whole ▸ marked_split unmarked blank, written⟩
  | alone unmarked written =>
    refine ⟨_, ?_, written⟩
    have cut := cut_none fun inside => unmarked (inside.trans (trim_within output.toList))
    simp only [splitWarning, cut]

/-- An output is read as the document that it shows. -/
theorem shown_read (reader : OutputReader) (shows : Shows output document warning) :
    reader.readAccepted output =
      match documentOf document with
      | some read => .ok (reader.ofDocument (String.ofList warning) read)
      | none => .error ⟨String.ofList warning⟩ := by
  obtain ⟨payload, split, written⟩ := shown_split shows
  cases read : documentOf document <;>
    simp only [OutputReader.readAccepted, split, document_read, written, Option.bind_some, read]

end Outputs

section Forms
variable {v : Value}

theorem trim_compact (bracketed : Bracketed v) : Text.trim v.compact = v.compact := by
  have brackets : ∃ first inside last, v.compact = first :: (inside ++ [last]) ∧
      Text.isBlank first = false ∧ Text.isBlank last = false := by
    cases v with
    | array items => exact ⟨'[', _, ']', rfl, by decide, by decide⟩
    | object members => exact ⟨'{', _, '}', rfl, by decide, by decide⟩
    | _ => cases bracketed
  obtain ⟨first, inside, last, shape, starts, ends⟩ := brackets
  have trimmed : Text.trim ([] ++ (first :: (inside ++ [last])) ++ []) =
      [].dropWhile Text.isBlank ++ first :: (inside ++ [last]) := trim_around starts ends (by simp)
  rw [List.append_nil, List.nil_append] at trimmed
  rw [shape]
  exact trimmed

/-- A value in brackets and the text that writes it are shown alike. -/
theorem interface_text (bracketed : Bracketed v) :
    interfaceText v = v.compact ∧ interfaceText (.string (String.ofList v.compact)) = v.compact := by
  constructor
  · cases v with
    | array items => rfl
    | object members => rfl
    | _ => cases bracketed
  · rw [interfaceText, String.toList_ofList, trim_compact bracketed]

/-- An output that shows a complete document is read, and the contract comes with its interface as text
if it is not listed again. -/
theorem complete_read (reader : OutputReader) (s : Surroundings) (complete : s.Complete)
    {output : String} {warning : List Char} {interface : Tree}
    (shows : Shows output (s.fill interface) warning) (read : interfaceOf interface = some v) :
    ∃ response, reader.readAccepted output = .ok response ∧
      (s.Last → ∃ object ∈ response.objects,
        object.name = String.ofList (objectName s.name.toList) ∧
        object.interface = String.ofList (interfaceText v)) := by
  obtain ⟨told, documents, last⟩ := document_around s
  have null : interfaceOf .null = some .null := by simp [interfaceOf, Value.ofTree?]
  rw [Surroundings.Complete, documents .null .null null, Option.isSome_map] at complete
  obtain ⟨⟨outline, version⟩, known⟩ := Option.isSome_iff_exists.mp complete
  have document : documentOf (s.fill interface) =
      some ⟨outline.contracts s.name v, version⟩ := by
    rw [documents interface v read, known]
    rfl
  refine ⟨reader.ofDocument (String.ofList warning) ⟨outline.contracts s.name v, version⟩, ?_,
    fun final => ?_⟩
  · rw [shown_read reader shows, document]
  · have entry : (s.name, ⟨outline.code, v⟩) ∈ outline.contracts s.name v :=
      collect_last (last final outline version known)
    exact ⟨_, List.mem_map_of_mem entry, rfl, rfl⟩

end Forms

/-- An interface comes to the same response as a value of the document and as a text in it. -/
theorem interface_forms_agree (reader : OutputReader) (s : Surroundings) {v : Value} {inline : Tree}
    {raw warning : List Char} {first second : String} (plain : Plain 100 v)
    (bracketed : Bracketed v) (written : Value.ofTree? 100 inline = some v)
    (spelled : unescape raw = some v.compact) (shows : Shows first (s.fill inline) warning)
    (shows' : Shows second (s.fill (.string raw)) warning) :
    reader.readAccepted first = reader.readAccepted second ∧
      (s.Complete → ∃ response, reader.readAccepted first = .ok response ∧
        (s.Last → ∃ object ∈ response.objects,
          object.name = String.ofList (objectName s.name.toList) ∧
          object.interface = String.ofList v.compact)) ∧
      ∃ tree, Tree.parse? v.compact = some tree ∧
        ∀ depth, 100 ≤ depth → Value.ofTree? depth tree = some v := by
  obtain ⟨own, quoted⟩ := interface_text bracketed
  have value : interfaceOf inline = some v := value_within (by decide) written
  have text : interfaceOf (.string raw) = some (.string (String.ofList v.compact)) := by
    simp [interfaceOf, Value.ofTree?, spelled]
  refine ⟨?_, fun complete => ?_, ?_⟩
  · obtain ⟨told, documents, -⟩ := document_around s
    rw [shown_read reader shows, shown_read reader shows', documents _ _ value, documents _ _ text]
    cases told with
    | none => rfl
    | some around =>
      obtain ⟨outline, version⟩ := around
      exact congrArg Except.ok (response_of_shown reader _ version
        (outline_shown outline s.name (own.trans quoted.symm)))
  · rw [← own]
    exact complete_read reader s complete shows value
  · obtain ⟨tree, parsed, valued⟩ := plain_parsed plain bracketed
    exact ⟨tree, parsed, fun depth deep => value_within deep valued⟩

section Printed
variable {interface : Value} {tree : Tree}

/-- A printed document of one contract of which only the interface is told, with members before the
contracts. -/
def lone (front : List (String × Value)) (interface : Value) : Value :=
  .object (front ++ [("contracts", .object [("A", .object [("abi", interface)])])])

/-- What such a document is read as around the interface. -/
def loneSurroundings (front : List (String × Tree)) : Surroundings where
  document := .object (front.map fun member => (spelling member.1, member.2)) (spelling "contracts") []
  opensContracts := unescape_spelled _
  earlier := []
  key := spelling "A"
  name := "A"
  named := unescape_spelled _
  later := []
  contract := .object [] (spelling "abi") []
  opensInterface := unescape_spelled _

theorem lone_parsed {front : List (String × Value)} {trees : List (String × Tree)}
    (each : List.Forall₂ ReadAsMember front trees) (read : ReadAs interface.compact tree) :
    Tree.parse? (lone front interface).compact = some ((loneSurroundings trees).fill tree) := by
  have contract : ReadAs (Value.object [("abi", interface)]).compact (spelled [("abi", tree)]) :=
    object_read_as (.cons ⟨rfl, read⟩ .nil)
  have contracts : ReadAs (Value.object [("A", .object [("abi", interface)])]).compact
      (spelled [("A", spelled [("abi", tree)])]) :=
    object_read_as (.cons ⟨rfl, contract⟩ .nil)
  have members : List.Forall₂ ReadAsMember
      [("contracts", .object [("A", .object [("abi", interface)])])]
      [("contracts", spelled [("A", spelled [("abi", tree)])])] :=
    .cons ⟨rfl, contracts⟩ .nil
  rw [lone, parse_of_read_as (object_read_as (List.rel_append each members))]
  simp [spelled, Surroundings.fill, RecordFrame.fill, loneSurroundings]

end Printed

section Marked

/-- An interface in which something looks like the start of a document. -/
def marked : Value := .object [("contracts", .array [])]

/-- What it is read as. -/
def markedTree : Tree := spelled [("contracts", .array [])]

/-- It as a text. -/
def markedText : Value := .string (String.ofList marked.compact)

theorem marked_plain : Plain 100 marked := by
  refine .object (List.pairwise_singleton ..) fun member among => ?_
  obtain rfl := List.mem_singleton.mp among
  exact .array (by simp)

theorem marked_written : Value.ofTree? 100 markedTree = some marked := rfl

theorem marked_read_as : ReadAs marked.compact markedTree :=
  object_read_as (.cons ⟨rfl, array_read_as .nil⟩ .nil)

theorem text_read_as :
    ReadAs markedText.compact (.string (spelling (String.ofList marked.compact))) :=
  quoted_read_as _

theorem text_spelled : unescape (spelling (String.ofList marked.compact)) = some marked.compact := by
  rw [spelling, unescape_spelled, String.toList_ofList]

/-- Such an interface is read if the document starts with its contracts. -/
theorem marked_interface_read :
    let inline := "note\n\x7b\"contracts\":\x7b\"A\":\x7b\"abi\":\x7b\"contracts\":[]\x7d\x7d\x7d\x7d"
    let text :=
      "note\n\x7b\"contracts\":\x7b\"A\":\x7b\"abi\":\"\x7b\\\"contracts\\\":[]\x7d\"\x7d\x7d\x7d"
    OutputReader.default.readAccepted inline = OutputReader.default.readAccepted text ∧
      ∃ response, OutputReader.default.readAccepted inline = .ok response ∧
        ∃ object ∈ response.objects,
          object.name = "A" ∧ object.interface = "\x7b\"contracts\":[]\x7d" := by
  intro inline text
  have unmarked : ¬ marker <:+: "note\n".toList := by decide +kernel
  have shows : Shows inline ((loneSurroundings []).fill markedTree) (Text.trim "note\n".toList) := by
    have whole : inline.toList = "note\n".toList ++
        (marker ++ "\x7b\"A\":\x7b\"abi\":\x7b\"contracts\":[]\x7d\x7d\x7d".toList ++ ['}']) ++ [] := by
      decide +kernel
    exact .behind _ _ _ whole unmarked (by simp) (lone_parsed .nil marked_read_as)
  have shows' : Shows text
      ((loneSurroundings []).fill (.string (spelling (String.ofList marked.compact))))
      (Text.trim "note\n".toList) := by
    have whole : text.toList = "note\n".toList ++ (marker ++
        "\x7b\"A\":\x7b\"abi\":\"\x7b\\\"contracts\\\":[]\x7d\"\x7d\x7d".toList ++ ['}']) ++ [] := by
      decide +kernel
    exact .behind _ _ _ whole unmarked (by simp) (lone_parsed .nil text_read_as)
  obtain ⟨same, read, -⟩ := interface_forms_agree .default (loneSurroundings []) marked_plain trivial
    marked_written text_spelled shows shows'
  obtain ⟨response, read, objects⟩ := read rfl
  obtain ⟨object, among, name, interface⟩ := objects (by simp [Surroundings.Last, loneSurroundings])
  exact ⟨same, response, read, object, among, name.trans (by decide), interface.trans (by decide)⟩

/-- If something else starts the document, the interface is taken for its start, but not the text that
writes the interface. -/
theorem marked_interface_misread :
    let inline :=
      "\x7b\"version\":null,\"contracts\":\x7b\"A\":\x7b\"abi\":\x7b\"contracts\":[]\x7d\x7d\x7d\x7d"
    let text :=
      "\x7b\"version\":null,\"contracts\":\x7b\"A\":\x7b\"abi\":\"\x7b\\\"contracts\\\":[]\x7d\"\x7d\x7d\x7d"
    Plain 100 marked ∧ Bracketed marked ∧
      (∃ tree, Value.ofTree? 100 tree = some marked ∧
        Tree.parse? inline.toList = some ((loneSurroundings [("version", .null)]).fill tree)) ∧
      (∃ raw, unescape raw = some marked.compact ∧
        Tree.parse? text.toList = some ((loneSurroundings [("version", .null)]).fill (.string raw))) ∧
      OutputReader.default.readAccepted inline =
        .error ⟨"\x7b\"version\":null,\"contracts\":\x7b\"A\":\x7b\"abi\":"⟩ ∧
      OutputReader.default.readAccepted text =
        .ok ⟨[⟨"A", "", "\x7b\"contracts\":[]\x7d"⟩], "", "", ""⟩ := by
  intro inline text
  have version : List.Forall₂ ReadAsMember [("version", .null)] [("version", .null)] :=
    .cons ⟨rfl, null_read_as⟩ .nil
  have printed : inline.toList = (lone [("version", .null)] marked).compact := by decide +kernel
  have printed' : text.toList = (lone [("version", .null)] markedText).compact := by decide +kernel
  have written := lone_parsed version marked_read_as
  have written' := lone_parsed version text_read_as
  rw [← printed] at written
  rw [← printed'] at written'
  refine ⟨marked_plain, trivial, ⟨_, marked_written, written⟩, ⟨_, text_spelled, written'⟩, ?_, ?_⟩
  · have unmarked :
        ¬ marker <:+: "\x7b\"version\":null,\"contracts\":\x7b\"A\":\x7b\"abi\":".toList := by
      decide +kernel
    have whole : inline.toList = "\x7b\"version\":null,\"contracts\":\x7b\"A\":\x7b\"abi\":".toList ++
        (marker ++ "[]\x7d\x7d\x7d".toList ++ ['}']) ++ [] := by
      decide +kernel
    have beyond : marker ++ "[]\x7d\x7d\x7d".toList ++ ['}'] = marked.compact ++ '}' :: ['}', '}'] := by
      decide +kernel
    have split : splitWarning inline.toList =
        (Text.trim "\x7b\"version\":null,\"contracts\":\x7b\"A\":\x7b\"abi\":".toList,
          marked.compact ++ '}' :: ['}', '}']) := by
      rw [whole, marked_split unmarked (by simp), beyond]
    have refused : readDocument (marked.compact ++ '}' :: ['}', '}']) = none := by
      rw [document_read, parse_refused marked_read_as, Option.bind_none]
    simp only [OutputReader.readAccepted, split, refused]
    decide
  · have unmarked : ¬ marker <:+: text.toList := by decide +kernel
    have trimmed : Text.trim text.toList = text.toList := by decide +kernel
    rw [shown_read .default (.alone unmarked (trimmed.symm ▸ written'))]
    rfl

end Marked

end ContractBuild.InterfaceForms
