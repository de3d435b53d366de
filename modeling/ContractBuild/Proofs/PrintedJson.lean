import ContractBuild.Json.Decode
import ContractBuild.Json.Printer
import Mathlib.Data.List.Forall2

/-! Printed JSON is read back. The text of a value comes apart into tokens wherever it stands, and the
tokens are put together to the value again whatever is open around it; so texts that are read back
make up texts that are read back. -/
namespace ContractBuild.PrintedJson
open Json

section Strings
variable {c : Char} {text rest : List Char}

private theorem hex_value_digit : ∀ n < 16, Text.hexValue? (Text.hexDigit n) = some n := by decide

/-- The characters that have an escape of their own. -/
private def short : List Char := ['"', '\\', '\x08', '\t', '\n', '\x0c', '\r']

private theorem escape_long (long : c ∉ short) :
    escape c = if c.toNat < 0x20 then
      ['\\', 'u', '0', '0', Text.hexDigit (c.toNat / 16), Text.hexDigit (c.toNat % 16)]
    else [c] := by
  unfold escape
  split <;> simp_all [short]

/-- A spelled character is read to its end. -/
theorem read_escaped (c : Char) (rest : List Char) :
    Token.readString (escape c ++ rest) =
      (Token.readString rest).map fun (raw, beyond) => (escape c ++ raw, beyond) := by
  by_cases long : c ∉ short
  · rw [escape_long long]
    by_cases control : c.toNat < 0x20
    · have first := hex_value_digit (c.toNat / 16) (by omega)
      have second := hex_value_digit (c.toNat % 16) (by omega)
      have zero : Text.hexValue? '0' = some 0 := by decide
      simp [control, Token.readString, first, second, zero]
    · have quote : c ≠ '"' := fun same => long (by simp [short, same])
      have backslash : c ≠ '\\' := fun same => long (by simp [short, same])
      simp only [control, if_false, List.singleton_append]
      rw [Token.readString]
      · simp [control, backslash]
      · simpa using quote
      · rintro _ _ _ _ _ rfl
        contradiction
      · rintro _ _ rfl
        contradiction
  · simp only [short, List.mem_cons, List.not_mem_nil, or_false, not_not] at long
    rcases long with rfl | rfl | rfl | rfl | rfl | rfl | rfl <;> rfl

/-- A printed text is read up to its closing quote. -/
theorem read_spelled (text rest : List Char) :
    Token.readString (text.flatMap escape ++ '"' :: rest) = some (text.flatMap escape, rest) := by
  induction text with
  | nil => rfl
  | cons c text ih =>
    rw [List.flatMap_cons, List.append_assoc, read_escaped, ih]
    rfl

private theorem code_unit_digits {n : Nat} (small : n < 0x20) :
    codeUnit '0' '0' (Text.hexDigit (n / 16)) (Text.hexDigit (n % 16)) = n := by
  have first := hex_value_digit (n / 16) (by omega)
  have second := hex_value_digit (n % 16) (by omega)
  have zero : Text.hexValue? '0' = some 0 := by decide
  simp only [codeUnit, List.foldl_cons, List.foldl_nil, first, second, zero, Option.getD_some]
  omega

/-- A spelled character stands for itself. -/
theorem unescape_escaped (c : Char) (rest : List Char) :
    unescape (escape c ++ rest) = (unescape rest).map (c :: ·) := by
  by_cases long : c ∉ short
  · rw [escape_long long]
    by_cases control : c.toNat < 0x20
    · have high : isHighHalf c.toNat = false := by
        simp [isHighHalf]
        omega
      have low : isLowHalf c.toNat = false := by
        simp [isLowHalf]
        omega
      rw [if_pos control]
      simp only [List.cons_append, List.nil_append]
      rw [unescape.eq_def]
      simp only [code_unit_digits control, high, low, Bool.false_eq_true, if_false, Char.ofNat_toNat]
    · have backslash : c ≠ '\\' := fun same => long (by simp [short, same])
      simp only [control, if_false, List.singleton_append]
      rw [unescape]
      · rintro _ _ _ _ _ rfl
        contradiction
      · rintro _ _ rfl
        contradiction
  · simp only [short, List.mem_cons, List.not_mem_nil, or_false, not_not] at long
    rcases long with rfl | rfl | rfl | rfl | rfl | rfl | rfl <;> rfl

/-- A printed text stands for itself. -/
theorem unescape_spelled (text : List Char) : unescape (text.flatMap escape) = some text := by
  induction text with
  | nil => rfl
  | cons c text ih =>
    rw [List.flatMap_cons, unescape_escaped, ih]
    rfl

end Strings

section Tokens
variable {text more : List Char} {tokens others : List Token}

/-- A text comes apart into tokens, wherever it stands. -/
def ScansAs (text : List Char) (tokens : List Token) : Prop :=
  ∀ rest, Token.scan (text ++ rest) = (Token.scan rest).map (tokens ++ ·)

theorem scans_append (first : ScansAs text tokens) (second : ScansAs more others) :
    ScansAs (text ++ more) (tokens ++ others) := by
  intro rest
  rw [List.append_assoc, first, second, Option.map_map]
  simp [Function.comp_def]

theorem scan_token {c : Char} {rest beyond : List Char} {token : Token}
    (solid : Token.isSpace c = false) (read : Token.read? c rest = some (token, beyond)) :
    Token.scan (c :: rest) = (Token.scan beyond).map (token :: ·) := by
  rw [Token.scan, if_neg (by simp [solid])]
  split
  · rename_i none
    cases none.symm.trans read
  · rename_i some
    obtain ⟨rfl, rfl⟩ := Prod.mk.inj (Option.some.inj (some.symm.trans read))
    rfl

theorem scans_mark {c : Char} (mark : c ∈ ['{', '}', '[', ']', ',', ':']) :
    ScansAs [c] [.mark c] := by
  intro rest
  apply scan_token
  · simp only [List.mem_cons, List.not_mem_nil, or_false] at mark
    rcases mark with rfl | rfl | rfl | rfl | rfl | rfl <;> rfl
  · unfold Token.read?
    rw [if_pos (by simpa using mark)]
    rfl

/-- A text comes apart into tokens before a mark that may follow a value within brackets. A number
does so, though it would go on with more digits. -/
def ScansBefore (text : List Char) (tokens : List Token) : Prop :=
  ∀ mark ∈ [',', ']', '}'], ScansAs (text ++ [mark]) (tokens ++ [.mark mark])

theorem scans_before (scanned : ScansAs text tokens) : ScansBefore text tokens := by
  intro mark among
  refine scans_append scanned (scans_mark ?_)
  simp only [List.mem_cons, List.not_mem_nil, or_false] at among ⊢
  tauto

theorem scans_append_before (first : ScansAs text tokens) (second : ScansBefore more others) :
    ScansBefore (text ++ more) (tokens ++ others) := by
  intro mark among
  rw [List.append_assoc, List.append_assoc]
  exact scans_append first (second mark among)

theorem scans_separated (first : ScansBefore text tokens) (second : ScansBefore more others) :
    ScansBefore (text ++ ',' :: more) (tokens ++ .mark ',' :: others) := by
  have whole := scans_append_before (first ',' (by simp)) second
  rwa [List.append_assoc, List.append_assoc] at whole

theorem scans_closed {c d : Char} (opens : c ∈ ['{', '}', '[', ']', ',', ':'])
    (closes : d ∈ [',', ']', '}']) (inside : ScansBefore text tokens) :
    ScansAs (c :: text ++ [d]) (.mark c :: tokens ++ [.mark d]) := by
  have whole := scans_append (scans_mark opens) (inside d closes)
  exact whole

/-- A text as it is spelled between quotes. -/
def spelling (text : String) : List Char := text.toList.flatMap escape

theorem scans_quoted (text : String) : ScansAs (quoted text) [.string (spelling text)] := by
  intro rest
  have shape : quoted text ++ rest = '"' :: (spelling text ++ '"' :: rest) := by
    simp [quoted, spelling]
  rw [shape]
  apply scan_token rfl
  unfold Token.read?
  rw [if_neg (by decide), if_pos rfl, spelling, read_spelled]
  rfl

end Tokens

section Trees
open Tree
variable {text text' : List Char} {tree : Tree} {raws raws' : List (List Char × Tree)}
  {members : List (String × Value)} {entries : List (String × Tree)}

/-- Tokens complete a tree wherever a value may come, whatever is open around it. -/
def Completes (tokens : List Token) (tree : Tree) : Prop :=
  ∀ stack more, (Reader.mk stack .value).run (tokens ++ more) =
    (Reader.complete tree stack).bind fun reader => reader.run more

/-- A text is read as a tree wherever a value may come: it comes apart into tokens that complete the
tree. -/
def ReadAs (text : List Char) (tree : Tree) : Prop :=
  ∃ tokens, ScansAs text tokens ∧ Completes tokens tree

/-- A text is read as a tree wherever a value may come within brackets. -/
def ReadWithin (text : List Char) (tree : Tree) : Prop :=
  ∃ tokens, ScansBefore text tokens ∧ Completes tokens tree

theorem ReadAs.within (read : ReadAs text tree) : ReadWithin text tree := by
  obtain ⟨tokens, scanned, completes⟩ := read
  exact ⟨tokens, scans_before scanned, completes⟩

theorem quoted_read_as (text : String) : ReadAs (quoted text) (.string (spelling text)) :=
  ⟨[.string (spelling text)], scans_quoted text, fun _ _ => rfl⟩

/-- A text is read as members where the first key of an object or a further one may come. -/
def ReadAsMembers (text : List Char) (raws : List (List Char × Tree)) : Prop :=
  ∃ tokens, ScansBefore text tokens ∧ ∀ expect done stack more, expect = .key ∨ expect = .keyOrEnd →
    (Reader.mk (.object done :: stack) expect).run (tokens ++ more) =
      (Reader.mk (.object (raws.reverse ++ done) :: stack) .separator).run more

theorem member_read_as (key : String) (read : ReadWithin text tree) :
    ReadAsMembers (quoted key ++ ':' :: text) [(spelling key, tree)] := by
  obtain ⟨tokens, scanned, completes⟩ := read
  refine ⟨[.string (spelling key)] ++ ([.mark ':'] ++ tokens), ?_, ?_⟩
  · exact scans_append_before (scans_quoted key)
      (scans_append_before (scans_mark (c := ':') (by simp)) scanned)
  · rintro expect done stack more (rfl | rfl)
    · exact completes (.member done (spelling key) :: stack) more
    · exact completes (.member done (spelling key) :: stack) more

theorem members_append (first : ReadAsMembers text raws) (second : ReadAsMembers text' raws') :
    ReadAsMembers (text ++ ',' :: text') (raws ++ raws') := by
  obtain ⟨tokens, scanned, reads⟩ := first
  obtain ⟨tokens', scanned', reads'⟩ := second
  refine ⟨_, scans_separated scanned scanned', fun expect done stack more start => ?_⟩
  have onward := reads' .key (raws.reverse ++ done) stack more (Or.inl rfl)
  rw [← List.append_assoc, ← List.reverse_append] at onward
  rw [List.append_assoc, reads expect done stack _ start]
  exact onward

/-- The object that is written with these keys. -/
def spelled (entries : List (String × Tree)) : Tree :=
  .object (entries.map fun entry => (spelling entry.1, entry.2))

/-- A member of a value is read as a member of a tree. -/
def ReadAsMember (member : String × Value) (entry : String × Tree) : Prop :=
  member.1 = entry.1 ∧ ReadAs member.2.compact entry.2

/-- A member of a value is read as a member of a tree within the brackets of an object. -/
def MemberWithin (member : String × Value) (entry : String × Tree) : Prop :=
  member.1 = entry.1 ∧ ReadWithin member.2.compact entry.2

theorem members_read_as (inhabited : members ≠ []) (each : List.Forall₂ MemberWithin members entries) :
    ReadAsMembers (Value.compactMembers members)
      (entries.map fun entry => (spelling entry.1, entry.2)) := by
  induction each with
  | nil => exact absurd rfl inhabited
  | @cons member entry members entries own rest ih =>
    obtain ⟨key, value⟩ := member
    obtain ⟨key', tree⟩ := entry
    obtain ⟨rfl, read⟩ := own
    have first := member_read_as key read
    cases rest with
    | nil => exact first
    | cons own' rest' =>
      have onward := members_append first (ih (by simp))
      simpa only [Value.compactMembers, List.map_cons, List.append_assoc, List.cons_append,
        List.nil_append] using onward

/-- A printed object is read as the object of what its values are read as within its brackets. -/
theorem object_read_within (each : List.Forall₂ MemberWithin members entries) :
    ReadAs (Value.object members).compact (spelled entries) := by
  by_cases none : members = []
  · subst none
    cases each
    exact ⟨_, scans_append (scans_mark (c := '{') (by simp)) (scans_mark (c := '}') (by simp)),
      fun _ _ => rfl⟩
  · obtain ⟨tokens, scanned, reads⟩ := members_read_as none each
    unfold spelled
    generalize entries.map (fun entry => (spelling entry.1, entry.2)) = raws at reads ⊢
    refine ⟨_, scans_closed (c := '{') (d := '}') (by simp) (by simp) scanned,
      fun stack more => ?_⟩
    have inside := reads .keyOrEnd [] stack (.mark '}' :: more) (Or.inr rfl)
    have closed : (Reader.mk (.object raws.reverse :: stack) .separator).step (.mark '}') =
        Reader.complete (.object raws.reverse.reverse) stack := rfl
    rw [List.append_nil, Reader.run, closed, List.reverse_reverse] at inside
    rw [List.append_assoc]
    exact inside

/-- A printed object is read as the object of what its values are read as. -/
theorem object_read_as (each : List.Forall₂ ReadAsMember members entries) :
    ReadAs (Value.object members).compact (spelled entries) :=
  object_read_within (each.imp fun _ _ own => ⟨own.1, own.2.within⟩)

theorem bool_read_as (value : Bool) : ReadAs (Value.bool value).compact (.bool value) := by
  cases value with
  | true =>
    refine ⟨[.bool true], fun rest => ?_, fun _ _ => rfl⟩
    exact scan_token rfl rfl
  | false =>
    refine ⟨[.bool false], fun rest => ?_, fun _ _ => rfl⟩
    exact scan_token rfl rfl

/-- A text is read as items where the first item of an array or a further one may come. -/
def ReadAsItems (text : List Char) (trees : List Tree) : Prop :=
  ∃ tokens, ScansBefore text tokens ∧
    ∀ expect done stack more, expect = .value ∨ expect = .itemOrEnd →
      (Reader.mk (.array done :: stack) expect).run (tokens ++ more) =
        (Reader.mk (.array (trees.reverse ++ done) :: stack) .separator).run more

/-- A value that may come first in an array is read there as it is anywhere: no value starts with the
bracket that would end the array. -/
private theorem run_first {tokens more : List Token} {done : List Tree} {stack : List Frame}
    (completes : Completes tokens tree) :
    (Reader.mk (.array done :: stack) .itemOrEnd).run (tokens ++ more) =
      (Reader.mk (.array done :: stack) .value).run (tokens ++ more) := by
  have alone := completes [] []
  cases tokens with
  | nil => cases alone
  | cons token tokens =>
    by_cases ends : token = .mark ']'
    · subst ends
      cases alone
    · have step : (Reader.mk (.array done :: stack) .itemOrEnd).step token =
          (Reader.mk (.array done :: stack) .value).step token := by
        unfold Reader.step
        split <;> simp_all
      rw [List.cons_append, Reader.run, Reader.run, step]

theorem item_read_as (read : ReadWithin text tree) : ReadAsItems text [tree] := by
  obtain ⟨tokens, scanned, completes⟩ := read
  refine ⟨tokens, scanned, ?_⟩
  rintro expect done stack more (rfl | rfl)
  · exact completes (.array done :: stack) more
  · rw [run_first completes]
    exact completes (.array done :: stack) more

theorem items_append {trees trees' : List Tree} (first : ReadAsItems text trees)
    (second : ReadAsItems text' trees') : ReadAsItems (text ++ ',' :: text') (trees ++ trees') := by
  obtain ⟨tokens, scanned, reads⟩ := first
  obtain ⟨tokens', scanned', reads'⟩ := second
  refine ⟨_, scans_separated scanned scanned', fun expect done stack more start => ?_⟩
  have onward := reads' .value (trees.reverse ++ done) stack more (Or.inl rfl)
  rw [← List.append_assoc, ← List.reverse_append] at onward
  rw [List.append_assoc, reads expect done stack _ start]
  exact onward

theorem items_read_as {items : List Value} {trees : List Tree} (inhabited : items ≠ [])
    (each : List.Forall₂ (fun item tree => ReadWithin item.compact tree) items trees) :
    ReadAsItems (Value.compactItems items) trees := by
  induction each with
  | nil => exact absurd rfl inhabited
  | @cons item tree items trees own rest ih =>
    have first := item_read_as own
    cases rest with
    | nil => exact first
    | cons own' rest' => exact items_append first (ih (by simp))

/-- A printed array is read as the array of what its items are read as within its brackets. -/
theorem array_read_within {items : List Value} {trees : List Tree}
    (each : List.Forall₂ (fun item tree => ReadWithin item.compact tree) items trees) :
    ReadAs (Value.array items).compact (.array trees) := by
  by_cases none : items = []
  · subst none
    cases each
    exact ⟨_, scans_append (scans_mark (c := '[') (by simp)) (scans_mark (c := ']') (by simp)),
      fun _ _ => rfl⟩
  · obtain ⟨tokens, scanned, reads⟩ := items_read_as none each
    refine ⟨_, scans_closed (c := '[') (d := ']') (by simp) (by simp) scanned,
      fun stack more => ?_⟩
    have inside := reads .itemOrEnd [] stack (.mark ']' :: more) (Or.inr rfl)
    have closed : (Reader.mk (.array trees.reverse :: stack) .separator).step (.mark ']') =
        Reader.complete (.array trees.reverse.reverse) stack := rfl
    rw [List.append_nil, Reader.run, closed, List.reverse_reverse] at inside
    rw [List.append_assoc]
    exact inside

/-- A printed array is read as the array of what its items are read as. -/
theorem array_read_as {items : List Value} {trees : List Tree}
    (each : List.Forall₂ (fun item tree => ReadAs item.compact tree) items trees) :
    ReadAs (Value.array items).compact (.array trees) :=
  array_read_within (each.imp fun _ _ read => read.within)

/-- A text that is read as a tree is a document that writes it. -/
theorem parse_of_read_as (read : ReadAs text tree) : Tree.parse? text = some tree := by
  obtain ⟨tokens, scanned, completes⟩ := read
  have tokenized : Token.scan text = some tokens := by
    have whole := scanned []
    rw [List.append_nil, Token.scan] at whole
    simpa using whole
  have finished := completes [] []
  rw [List.append_nil] at finished
  have started : Reader.start.run tokens = some ⟨[], .done tree⟩ := finished
  rw [Tree.parse?, tokenized]
  simp only [Option.bind_some, Tree.ofTokens?, started]

/-- Nothing may follow a document, such as a bracket that closes none. -/
theorem parse_refused (read : ReadAs text tree) (rest : List Char) :
    Tree.parse? (text ++ '}' :: rest) = none := by
  obtain ⟨tokens, scanned, completes⟩ := read
  have bracket : Token.scan ('}' :: rest) = (Token.scan rest).map ([.mark '}'] ++ ·) :=
    scans_mark (by simp) rest
  have refused : ∀ more, Tree.ofTokens? (tokens ++ .mark '}' :: more) = none := by
    intro more
    have stuck : Reader.start.run (tokens ++ .mark '}' :: more) = none :=
      completes [] (.mark '}' :: more)
    rw [Tree.ofTokens?, stuck]
  rw [Tree.parse?, scanned, bracket]
  cases Token.scan rest with
  | none => rfl
  | some more => exact refused more

end Trees

section Records

/-- The keys of an object that is read are the texts that were printed. -/
theorem members_of_spelled (entries : List (String × Tree)) :
    (spelled entries).members? = some entries := by
  have each : ∀ entry : String × Tree,
      ((unescape (spelling entry.1)).map fun key => (String.ofList key, entry.2)) = some entry := by
    intro entry
    rw [spelling, unescape_spelled, Option.map_some, String.ofList_toList]
  simp only [spelled, Tree.members?, List.mapM_map, Function.comp_def, each]
  exact List.mapM_pure.trans (congrArg some (List.map_id entries))

theorem fields_of_spelled (names : List String) (entries : List (String × Tree)) :
    (spelled entries).fields? names = names.mapM (Tree.field? entries) := by
  have read : (spelled entries).fields? names =
      (spelled entries).members?.bind fun members => names.mapM (Tree.field? members) := rfl
  rw [read, members_of_spelled, Option.bind_some]

theorem text_of_spelling (text : String) : (Tree.string (spelling text)).text? = some text := by
  simp [Tree.text?, spelling, unescape_spelled]

theorem value_of_spelling (depth : Nat) (text : String) :
    Value.ofTree? depth (.string (spelling text)) = some (.string text) := by
  simp [Value.ofTree?, spelling, unescape_spelled]

end Records

end ContractBuild.PrintedJson
