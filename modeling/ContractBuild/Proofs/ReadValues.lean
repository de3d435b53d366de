import ContractBuild.Proofs.DecimalForms
import ContractBuild.Proofs.WireForm

/-! Values that are printed on one line are read back, if their numbers are integers. A number goes on
as far as its characters do, so it is read back before a mark; everything else is read back wherever it
stands. What is read within some depth of nesting is read within every greater one. -/
namespace ContractBuild.ReadValues
open Json DecimalForms PrintedJson

section Numbers
variable {c : Char} {n : Nat}

/-- The spelling of a number without fraction and exponent. -/
def whole (negative : Bool) (n : Nat) : Numeral := ⟨negative, Text.decimal n, [], none⟩

/-- A character that no number goes on with. -/
structure Ends (c : Char) : Prop where
  digit : Text.isDigit c = false
  point : c ≠ '.'
  exponent : c ≠ 'e' ∧ c ≠ 'E'

theorem mark_ends (among : c ∈ [',', ']', '}']) : Ends c := by
  simp only [List.mem_cons, List.not_mem_nil, or_false] at among
  rcases among with rfl | rfl | rfl <;> exact ⟨rfl, by decide, by decide⟩

private theorem whole_read (n : Nat) (ends : Ends c) (rest : List Char) :
    Token.readWhole (Text.decimal n ++ c :: rest) = some (Text.decimal n, c :: rest) := by
  have stop : ∀ d ∈ (c :: rest).head?, Text.isDigit d = false := by simpa using ends.digit
  obtain ⟨taken, left⟩ := take_digits (decimal_digits n) stop
  by_cases zero : n = 0
  · have shown : Text.decimal 0 = ['0'] := decimal_small (by decide)
    rw [zero, shown]
    rfl
  · obtain ⟨d, ds, starts, solid⟩ := decimal_starts (Nat.pos_of_ne_zero zero)
    rw [starts] at taken left ⊢
    unfold Token.readWhole
    split
    · rename_i same
      cases same
      contradiction
    · rw [Token.digits, taken, Token.afterDigits, left, if_neg (by simp)]

private theorem unsigned_read (negative : Bool) (n : Nat) (ends : Ends c) (rest : List Char) :
    Token.readUnsigned negative (Text.decimal n ++ c :: rest) =
      some (whole negative n, c :: rest) := by
  have fraction : Token.readFraction (c :: rest) = some ([], c :: rest) := by
    unfold Token.readFraction
    split
    · rename_i same
      cases same
      exact absurd rfl ends.point
    · rfl
  have exponent : Token.readExponent (c :: rest) = some (none, c :: rest) := by
    rw [Token.readExponent, if_neg]
    exact fun either => either.elim ends.exponent.1 ends.exponent.2
  simp only [Token.readUnsigned, whole_read n ends, fraction, exponent, Option.bind_eq_bind,
    Option.bind_some]
  rfl

/-- A token that starts with a digit or a minus sign is a number. -/
private theorem starts_number (starts : Text.isDigit c = true ∨ c = '-') (rest : List Char) :
    Token.isSpace c = false ∧ Token.read? c rest =
      (Token.readNumber (c :: rest)).map fun (numeral, beyond) => (.number numeral, beyond) := by
  have other : ∀ d : Char, Text.isDigit d = false → d ≠ '-' → c ≠ d := by
    rintro d digit sign rfl
    rcases starts with starts | starts
    · rw [digit] at starts
      contradiction
    · exact sign starts
  constructor
  · simp [Token.isSpace, other ' ' rfl (by decide), other '\t' rfl (by decide),
      other '\n' rfl (by decide), other '\r' rfl (by decide)]
  · have unmarked : c ∉ ['{', '}', '[', ']', ',', ':'] := by
      simp [other '{' rfl (by decide), other '}' rfl (by decide), other '[' rfl (by decide),
        other ']' rfl (by decide), other ',' rfl (by decide), other ':' rfl (by decide)]
    unfold Token.read?
    rw [if_neg (by simpa using unmarked), if_neg (other '"' rfl (by decide))]
    split
    · exact absurd rfl (other 'n' rfl (by decide))
    · exact absurd rfl (other 't' rfl (by decide))
    · exact absurd rfl (other 'f' rfl (by decide))
    · rfl

/-- A text that is read as a number before a mark is read within brackets. -/
private theorem number_within {text : List Char} {numeral : Numeral}
    (starts : ∃ c tail, text = c :: tail ∧ (Text.isDigit c = true ∨ c = '-'))
    (read : ∀ c rest, Ends c → Token.readNumber (text ++ c :: rest) = some (numeral, c :: rest)) :
    ReadWithin text (.number numeral) := by
  refine ⟨[.number numeral], fun mark among rest => ?_, fun _ _ => rfl⟩
  obtain ⟨c, tail, rfl, start⟩ := starts
  obtain ⟨solid, token⟩ := starts_number start (tail ++ mark :: rest)
  have found := read mark rest (mark_ends among)
  rw [List.cons_append] at found
  rw [found, Option.map_some] at token
  have marks : mark ∈ ['{', '}', '[', ']', ',', ':'] := by
    simp only [List.mem_cons, List.not_mem_nil, or_false] at among ⊢
    tauto
  have beyond := scans_mark marks rest
  rw [List.append_assoc, List.cons_append, List.singleton_append, scan_token solid token]
  rw [List.singleton_append] at beyond
  rw [beyond, Option.map_map]
  rfl

/-- A natural number is read within brackets. -/
theorem natural_within (n : Nat) : ReadWithin (Text.decimal n) (.number (whole false n)) := by
  obtain ⟨c, tail, starts⟩ : ∃ c tail, Text.decimal n = c :: tail := by
    cases zero : n with
    | zero => exact ⟨'0', [], decimal_small (by decide)⟩
    | succ m =>
      obtain ⟨c, tail, starts, -⟩ := decimal_starts (Nat.succ_pos m)
      exact ⟨c, tail, starts⟩
  have digit : Text.isDigit c = true := decimal_digits n c (by simp [starts])
  refine number_within ⟨c, tail, starts, .inl digit⟩ fun d rest ends => ?_
  have unsigned := unsigned_read false n ends rest
  rw [starts, List.cons_append] at unsigned ⊢
  unfold Token.readNumber
  split
  · rename_i same
    cases same
    cases digit
  · exact unsigned

/-- A number below zero is read within brackets. -/
theorem negative_within (n : Nat) : ReadWithin ('-' :: Text.decimal n) (.number (whole true n)) :=
  number_within ⟨'-', _, rfl, .inr rfl⟩ fun _ rest ends => unsigned_read true n ends rest

end Numbers

section Values
variable {depth : Nat} {v : Value}

/-- A value whose brackets nest to a depth at most, whose numbers are integers of 64 bits, and whose
objects list their keys in ascending order, each once. -/
inductive Plain : (depth : Nat) → Value → Prop where
  | null (depth : Nat) : Plain depth .null
  | bool (depth : Nat) (value : Bool) : Plain depth (.bool value)
  | natural (depth : Nat) {n : Nat} (fits : n < Nat.pow 2 64) : Plain depth (.number (.natural n))
  | negative (depth : Nat) {n : Nat} (below : 0 < n) (fits : n ≤ Nat.pow 2 63) :
      Plain depth (.number (.negative n))
  | string (depth : Nat) (text : String) : Plain depth (.string text)
  | array {depth : Nat} {items : List Value} (each : ∀ item ∈ items, Plain depth item) :
      Plain (depth + 1) (.array items)
  | object {depth : Nat} {members : List (String × Value)}
      (ascending : members.Pairwise fun a b => a.1 < b.1)
      (each : ∀ member ∈ members, Plain depth member.2) : Plain (depth + 1) (.object members)

/-- A value in brackets. -/
def Bracketed : Value → Prop
  | .array _ => True
  | .object _ => True
  | _ => False

theorem natural_value {n : Nat} (fits : n < Nat.pow 2 64) :
    (whole false n).value? = some (.natural n) := by
  simp only [Numeral.value?, whole, value_of_decimal]
  rw [if_pos ⟨trivial, trivial, fits⟩]
  rfl

theorem negative_value {n : Nat} (below : 0 < n) (fits : n ≤ Nat.pow 2 63) :
    (whole true n).value? = some (.negative n) := by
  have words : Nat.pow 2 63 < Nat.pow 2 64 := by decide
  simp only [Numeral.value?, whole, value_of_decimal]
  rw [if_pos ⟨trivial, trivial, Nat.lt_of_le_of_lt fits words⟩, if_neg (by simp),
    if_pos ⟨below, fits⟩]

theorem null_read_as : ReadAs Value.null.compact .null :=
  ⟨[.null], fun _ => scan_token rfl rfl, fun _ _ => rfl⟩

/-- A value is told by each of a list's members, so by a list. -/
private theorem each_some {α β : Type} {related : α → β → Prop} {list : List α}
    (each : ∀ a ∈ list, ∃ b, related a b) : ∃ others, List.Forall₂ related list others := by
  induction list with
  | nil => exact ⟨[], .nil⟩
  | cons a list ih =>
    rw [List.forall_mem_cons] at each
    obtain ⟨b, first⟩ := each.1
    obtain ⟨others, rest⟩ := ih each.2
    exact ⟨b :: others, .cons first rest⟩

theorem items_valued {items : List Value} {trees : List Tree}
    (each : List.Forall₂ (fun item tree => Value.ofTree? depth tree = some item) items trees) :
    Value.ofItems? depth trees = some items := by
  induction each with
  | nil => rfl
  | cons own _ ih => simp only [Value.ofItems?, own, ih]

theorem members_valued {members : List (String × Value)} {entries : List (String × Tree)}
    (each : List.Forall₂ (fun member entry => member.1 = entry.1 ∧
      Value.ofTree? depth entry.2 = some member.2) members entries) :
    Value.ofMembers? depth (entries.map fun entry => (spelling entry.1, entry.2)) =
      some members := by
  induction each with
  | nil => rfl
  | @cons member entry members entries own _ ih =>
    obtain ⟨same, value⟩ := own
    have key : unescape (spelling entry.1) = some member.1.toList := by
      rw [spelling, unescape_spelled, same]
    simp only [List.map_cons, Value.ofMembers?, key, value, ih, String.ofList_toList]

/-- A text is read within brackets as a tree that has a value. -/
def Tells (depth : Nat) (v : Value) (tree : Tree) : Prop :=
  ReadWithin v.compact tree ∧ Value.ofTree? depth tree = some v

/-- An array is read back if its items are. -/
theorem array_told {items : List Value} (each : ∀ item ∈ items, ∃ tree, Tells depth item tree) :
    ∃ tree, ReadAs (Value.array items).compact tree ∧
      Value.ofTree? (depth + 1) tree = some (.array items) := by
  obtain ⟨trees, told⟩ := each_some each
  refine ⟨.array trees, array_read_within (told.imp fun _ _ own => own.1), ?_⟩
  rw [Value.ofTree?]
  simp only [items_valued (told.imp fun _ _ own => own.2), Option.map_some]

/-- An object is read back if what its members are mapped to is. -/
theorem object_told {members : List (String × Value)}
    (ascending : members.Pairwise fun a b => a.1 < b.1)
    (each : ∀ member ∈ members, ∃ tree, Tells depth member.2 tree) :
    ∃ tree, ReadAs (Value.object members).compact tree ∧
      Value.ofTree? (depth + 1) tree = some (.object members) := by
  have entries : ∀ member ∈ members, ∃ entry : String × Tree,
      member.1 = entry.1 ∧ Tells depth member.2 entry.2 := by
    intro member among
    obtain ⟨tree, told⟩ := each member among
    exact ⟨(member.1, tree), rfl, told⟩
  obtain ⟨entries, told⟩ := each_some entries
  refine ⟨spelled entries, object_read_within (told.imp fun _ _ own => ⟨own.1, own.2.1⟩), ?_⟩
  have valued := members_valued (told.imp fun _ _ own => ⟨own.1, own.2.2⟩)
  have kept := congrArg KeyMap.entries (WireForm.of_entries ⟨members, ascending⟩)
  rw [spelled, Value.ofTree?]
  simp only [valued, Option.map_some]
  rw [kept]

theorem plain_told (plain : Plain depth v) : ∃ tree, Tells depth v tree := by
  induction plain with
  | null depth => exact ⟨.null, null_read_as.within, by simp [Value.ofTree?]⟩
  | bool depth value => exact ⟨.bool value, (bool_read_as value).within, by simp [Value.ofTree?]⟩
  | @natural depth n fits =>
    exact ⟨.number (whole false n), natural_within n, by
      simp [Value.ofTree?, natural_value fits]⟩
  | @negative depth n below fits =>
    exact ⟨.number (whole true n), negative_within n, by
      simp [Value.ofTree?, negative_value below fits]⟩
  | string depth text =>
    exact ⟨.string (spelling text), (quoted_read_as text).within, value_of_spelling depth text⟩
  | array _ ih =>
    obtain ⟨tree, read, valued⟩ := array_told ih
    exact ⟨tree, read.within, valued⟩
  | object ascending _ ih =>
    obtain ⟨tree, read, valued⟩ := object_told ascending ih
    exact ⟨tree, read.within, valued⟩

/-- A value in brackets is what its text writes. -/
theorem plain_parsed (plain : Plain depth v) (bracketed : Bracketed v) :
    ∃ tree, Tree.parse? v.compact = some tree ∧ Value.ofTree? depth tree = some v := by
  cases plain with
  | array each =>
    obtain ⟨tree, read, valued⟩ := array_told fun item among => plain_told (each item among)
    exact ⟨tree, parse_of_read_as read, valued⟩
  | object ascending each =>
    obtain ⟨tree, read, valued⟩ :=
      object_told ascending fun member among => plain_told (each member among)
    exact ⟨tree, parse_of_read_as read, valued⟩
  | _ => cases bracketed

end Values

section Depths

mutual

theorem value_deeper : ∀ {tree : Tree} {depth : Nat} {v : Value},
    Value.ofTree? depth tree = some v → Value.ofTree? (depth + 1) tree = some v
  | .null, _, _, valued => by simpa [Value.ofTree?] using valued
  | .bool _, _, _, valued => by simpa [Value.ofTree?] using valued
  | .number _, _, _, valued => by simpa [Value.ofTree?] using valued
  | .string _, _, _, valued => by simpa [Value.ofTree?] using valued
  | .array items, 0, _, valued => by simp [Value.ofTree?] at valued
  | .array items, depth + 1, _, valued => by
    rw [Value.ofTree?] at valued ⊢
    obtain ⟨values, found, rfl⟩ := Option.map_eq_some_iff.mp valued
    exact Option.map_eq_some_iff.mpr ⟨values, items_deeper found, rfl⟩
  | .object members, 0, _, valued => by simp [Value.ofTree?] at valued
  | .object members, depth + 1, _, valued => by
    rw [Value.ofTree?] at valued ⊢
    obtain ⟨values, found, rfl⟩ := Option.map_eq_some_iff.mp valued
    exact Option.map_eq_some_iff.mpr ⟨values, members_deeper found, rfl⟩

theorem items_deeper : ∀ {trees : List Tree} {depth : Nat} {values : List Value},
    Value.ofItems? depth trees = some values → Value.ofItems? (depth + 1) trees = some values
  | [], _, _, valued => valued
  | tree :: trees, depth, _, valued => by
    rw [Value.ofItems?] at valued ⊢
    split at valued
    · rename_i first others
      rw [value_deeper first, items_deeper others]
      exact valued
    · cases valued

theorem members_deeper : ∀ {raws : List (List Char × Tree)} {depth : Nat}
    {members : List (String × Value)},
    Value.ofMembers? depth raws = some members → Value.ofMembers? (depth + 1) raws = some members
  | [], _, _, valued => valued
  | (raw, tree) :: raws, depth, _, valued => by
    rw [Value.ofMembers?] at valued ⊢
    split at valued
    · rename_i key first others
      rw [key, value_deeper first, members_deeper others]
      exact valued
    · cases valued

end

/-- What is read within some depth is read within every greater one. -/
theorem value_within {tree : Tree} {v : Value} {depth deeper : Nat} (below : depth ≤ deeper)
    (valued : Value.ofTree? depth tree = some v) : Value.ofTree? deeper tree = some v := by
  induction below with
  | refl => exact valued
  | step _ ih => exact value_deeper ih

end Depths

end ContractBuild.ReadValues
