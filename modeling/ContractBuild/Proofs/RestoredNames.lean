import ContractBuild.Proofs.CombinedOutput
import ContractBuild.Proofs.SelfContained
import Mathlib.Data.List.Find

/-! Names are restored all at once. A table's names are replaced one after the other, each in a text
that has been changed for those before it, and yet the result is that of one pass over the text as it
was: what is put in holds no name of the table, and no name reaches over its ends, since what stands
around it cannot be a part of a name. -/
namespace ContractBuild.RestoredNames
open CombinedOutput Resolution SelfContained Source

/-- A part of a text: a character, or a name of a table with the path that is shown for it. -/
inductive Piece where
  | other (c : Char)
  | name (key : String) (path : Path)

namespace Piece

/-- The part as it stands in the text. -/
def written : Piece → List Char
  | other c => [c]
  | name key _ => key.toList

/-- The part as it is shown. -/
def shown : Piece → List Char
  | other c => [c]
  | name _ path => path.text.toList

end Piece

/-- The first entry of a table whose name a text starts with. -/
def starting? (entries : List (String × Path)) (text : List Char) : Option (String × Path) :=
  entries.find? fun entry => entry.1.toList.isPrefixOf text

/-- The parts of a text from left to right. The names of the table are looked for at each character
that is not in a name found before. -/
def pieces (entries : List (String × Path)) (text : List Char) : List Piece :=
  match text with
  | [] => []
  | c :: rest =>
    match starting? entries (c :: rest) with
    | some (key, path) => .name key path :: pieces entries (rest.drop (key.toList.length - 1))
    | none => .other c :: pieces entries rest
termination_by text.length
decreasing_by
  · simp only [List.length_drop, List.length_cons]
    omega
  · simp

/-- A text with each name of a table replaced by the path shown for it, in one pass. -/
def restoredOnce (entries : List (String × Path)) (text : List Char) : List Char :=
  (pieces entries text).flatMap Piece.shown

/-- A text with the names of a table replaced one after the other. -/
def replacedInTurn (order : List (String × Path)) (text : List Char) : List Char :=
  order.foldl (fun text entry => Text.replace entry.1.toList entry.2.text.toList text) text

/-- The names of a table have the form of names. -/
def Keyed (entries : List (String × Path)) : Prop := ∀ entry ∈ entries, IsKey entry.1

/-- No path of a table shows a name of another table, or of the same one. -/
def Clean (entries others : List (String × Path)) : Prop :=
  ∀ entry ∈ entries, ∀ other ∈ others, ¬ other.1.toList <:+: entry.2.text.toList

/-- A character that could go on with a name. -/
def isInner (c : Char) : Bool := ('0' ≤ c && c ≤ '9') || ('a' ≤ c && c ≤ 'z') || c == '.'

/-- No name goes on over a place: there is no character there or one that no name has. -/
def Ends (next : Option Char) : Prop := ∀ c ∈ next, isInner c = false

/-- Each name of the table that occurs in a text is bounded on both sides, given the character that
stands before the text. -/
def BoundedAfter (previous : Option Char) (entries : List (String × Path)) (text : List Char) : Prop :=
  ∀ entry ∈ entries, ∀ before after, text = before ++ (entry.1.toList ++ after) →
    Ends (before.getLast?.or previous) ∧ Ends after.head?

/-- Each name of the table that occurs in a text is bounded on both sides, by the end of the text or by
a character that no name has. -/
def Bounded (entries : List (String × Path)) (text : List Char) : Prop :=
  ∀ entry ∈ entries, ∀ before after, text = before ++ (entry.1.toList ++ after) →
    Ends before.getLast? ∧ Ends after.head?

section Keys
variable {key other : String} {text rest : List Char}

theorem inner_of_key (isKey : IsKey key) : ∀ c ∈ key.toList, isInner c = true := by
  obtain ⟨digits, -, all, form⟩ := isKey
  intro c among
  rw [form] at among
  rcases List.mem_append.mp among with digit | extension
  · rcases all c digit with ⟨low, high⟩ | ⟨low, high⟩
    · simp [isInner, low, high]
    · have below : c ≤ 'z' := Char.le_trans high (by decide)
      simp [isInner, low, below]
  · have marks : ['.', 's', 'o', 'l'].all isInner = true := by decide
    exact List.all_eq_true.mp marks c extension

theorem length_of_key (isKey : IsKey key) : key.toList.length = 68 := by
  obtain ⟨digits, count, -, form⟩ := isKey
  rw [form, List.length_append, count]
  rfl

theorem cons_of_key (isKey : IsKey key) : ∃ c tail, key.toList = c :: tail :=
  List.exists_cons_of_length_pos (by rw [length_of_key isKey]; decide)

/-- One text starts with one name. -/
theorem key_unique (isKey : IsKey key) (isKey' : IsKey other) (starts : key.toList <+: text)
    (starts' : other.toList <+: text) : key = other := by
  have same : key.toList.length = other.toList.length := by
    rw [length_of_key isKey, length_of_key isKey']
  have inside := List.prefix_of_prefix_length_le starts starts' (Nat.le_of_eq same)
  exact String.toList_inj.mp (inside.eq_of_length same)

/-- A name does not reach over a place where none goes on. -/
theorem prefix_of_ends {key : List Char} (inner : ∀ c ∈ key, isInner c = true)
    (ends : Ends rest.head?) (starts : key <+: text ++ rest) : key <+: text := by
  induction text generalizing key with
  | nil =>
    cases key with
    | nil => exact List.nil_prefix
    | cons c key =>
      obtain ⟨behind, rfl⟩ := starts
      have outer := ends c rfl
      rw [inner c (by simp)] at outer
      cases outer
  | cons d text ih =>
    cases key with
    | nil => exact List.nil_prefix
    | cons c key =>
      obtain ⟨same, starts⟩ := List.cons_prefix_cons.mp starts
      exact List.cons_prefix_cons.mpr ⟨same, ih (fun c among => inner c (List.mem_cons_of_mem _ among))
        starts⟩

theorem infix_of_ends {key : List Char} (inner : ∀ c ∈ key, isInner c = true)
    (ends : Ends rest.head?) (inside : key <:+: text ++ rest) : key <:+: text ∨ key <:+: rest := by
  induction text with
  | nil => exact Or.inr inside
  | cons c text ih =>
    rcases List.infix_cons_iff.mp inside with starts | later
    · exact Or.inl (prefix_of_ends inner ends starts).isInfix
    · exact (ih later).imp_left fun inside => inside.trans (List.suffix_cons c text).isInfix

end Keys

theorem ends_or {first second : Option Char} (ends : Ends first) (ends' : Ends second) :
    Ends (first.or second) := by
  cases first with
  | none => exact ends'
  | some c => exact ends

section Bounds
variable {previous : Option Char} {entries : List (String × Path)} {front rest : List Char}

/-- What is bounded in a text is bounded in its end. -/
theorem bounded_tail (front : List Char)
    (bounded : BoundedAfter previous entries (front ++ rest)) :
    BoundedAfter (front.getLast?.or previous) entries rest := by
  intro entry among before after whole
  have bounds := bounded entry among (front ++ before) after (by rw [whole, List.append_assoc])
  rwa [List.getLast?_append, Option.or_assoc] at bounds

theorem bounded_iff : BoundedAfter none entries rest ↔ Bounded entries rest := by
  simp only [BoundedAfter, Bounded, Option.or_none]

/-- A name by itself is bounded. -/
theorem bounded_alone {key : String} (keys : Keyed entries) (isKey : IsKey key) :
    Bounded entries key.toList := by
  intro entry among before after whole
  have lengths := congrArg List.length whole
  rw [List.length_append, List.length_append, length_of_key isKey, length_of_key (keys entry among)]
    at lengths
  obtain rfl : before = [] := List.eq_nil_of_length_eq_zero (by omega)
  obtain rfl : after = [] := List.eq_nil_of_length_eq_zero (by omega)
  exact ⟨nofun, nofun⟩

/-- Names that are bounded in two texts are bounded in both with a character between that no name
has. -/
theorem bounded_join {c : Char} (keys : Keyed entries) (outer : isInner c = false)
    (first : Bounded entries front) (second : Bounded entries rest) :
    Bounded entries (front ++ c :: rest) := by
  intro entry among before after whole
  have outside : c ∉ entry.1.toList := fun inside => by
    rw [inner_of_key (keys entry among) c inside] at outer
    cases outer
  have ends : Ends (some c) := by
    rintro _ ⟨⟩
    exact outer
  rcases List.append_eq_append_iff.mp whole with ⟨lead, rfl, beyond⟩ | ⟨lead, rfl, beyond⟩
  · cases lead with
    | nil =>
      obtain ⟨d, tail, form⟩ := cons_of_key (keys entry among)
      rw [form] at beyond outside
      obtain ⟨rfl, -⟩ := List.cons.inj beyond
      exact absurd List.mem_cons_self outside
    | cons d lead =>
      obtain ⟨rfl, own⟩ := List.cons.inj beyond
      obtain ⟨bound, next⟩ := second entry among lead after own
      rw [List.append_cons, List.getLast?_append, List.getLast?_concat]
      exact ⟨ends_or bound ends, next⟩
  · rcases List.append_eq_append_iff.mp beyond with ⟨back, rfl, rfl⟩ | ⟨back, form, own⟩
    · obtain ⟨bound, next⟩ := first entry among before back rfl
      rw [List.head?_append]
      exact ⟨bound, ends_or next ends⟩
    · cases back with
      | nil =>
        rw [List.append_nil] at form
        obtain ⟨bound, -⟩ := first entry among before [] (by rw [form, List.append_nil])
        obtain rfl : after = c :: rest := own.symm
        exact ⟨bound, ends⟩
      | cons d back =>
        obtain ⟨rfl, -⟩ := List.cons.inj own
        exact absurd (by simp [form]) outside

/-- What follows a name does not go on with it. -/
theorem ends_of_bounded {entry : String × Path} (among : entry ∈ entries)
    (bounded : BoundedAfter previous entries (entry.1.toList ++ rest)) : Ends rest.head? :=
  (bounded entry among [] rest rfl).2

end Bounds

section Pieces
variable {entries : List (String × Path)} {entry : String × Path} {text rest : List Char} {c : Char}

theorem starting_some (found : starting? entries text = some entry) :
    entry ∈ entries ∧ entry.1.toList <+: text := by
  unfold starting? at found
  exact ⟨List.mem_of_find?_eq_some found, by simpa using List.find?_some found⟩

theorem starting_none : starting? entries text = none ↔
    ∀ entry ∈ entries, ¬ entry.1.toList <+: text := by
  simp [starting?]

/-- The two halves of a table are searched one after the other. -/
theorem starting_append (first second : List (String × Path)) (text : List Char) :
    starting? (first ++ second) text = (starting? first text).or (starting? second text) :=
  List.find?_append

/-- What follows a name does not matter for what a text starts with. -/
theorem starting_before {key : String} (keys : Keyed entries) (isKey : IsKey key)
    (rest rest' : List Char) :
    starting? entries (key.toList ++ rest) = starting? entries (key.toList ++ rest') := by
  have same : ∀ entry ∈ entries, ∀ rest,
      (entry.1.toList.isPrefixOf (key.toList ++ rest) = true ↔ entry.1 = key) := by
    intro entry among rest
    rw [List.isPrefixOf_iff_prefix]
    constructor
    · exact fun starts => key_unique (keys entry among) isKey starts (List.prefix_append ..)
    · rintro rfl
      exact List.prefix_append ..
  refine List.find?_congr fun entry among => ?_
  rw [Bool.eq_iff_iff, same entry among, same entry among]

/-- The entry whose name a text starts with. -/
theorem starting_found (keys : Keyed entries)
    (unique : ∀ entry ∈ entries, ∀ other ∈ entries, entry.1 = other.1 → entry = other)
    (among : entry ∈ entries) (starts : entry.1.toList <+: text) :
    starting? entries text = some entry := by
  cases found : starting? entries text with
  | none => exact absurd starts (starting_none.mp found entry among)
  | some other =>
    obtain ⟨among', starts'⟩ := starting_some found
    have same := key_unique (keys _ among') (keys _ among) starts' starts
    rw [unique _ among' _ among same]

/-- No name starts where none goes on. -/
theorem starting_of_ends (keys : Keyed entries) (ends : Ends text.head?) :
    starting? entries text = none := by
  refine starting_none.mpr fun entry among starts => ?_
  have nothing : entry.1.toList <+: [] :=
    prefix_of_ends (inner_of_key (keys entry among)) ends starts
  have length := length_of_key (keys entry among)
  rw [List.prefix_nil.mp nothing] at length
  cases length

theorem pieces_name (isKey : IsKey entry.1)
    (found : starting? entries (entry.1.toList ++ rest) = some entry) :
    pieces entries (entry.1.toList ++ rest) = .name entry.1 entry.2 :: pieces entries rest := by
  obtain ⟨c, tail, form⟩ := cons_of_key isKey
  rw [form, List.cons_append] at found ⊢
  rw [pieces, found]
  dsimp only
  rw [form, List.length_cons, Nat.add_sub_cancel, List.drop_left]

theorem pieces_other (missed : starting? entries (c :: rest) = none) :
    pieces entries (c :: rest) = .other c :: pieces entries rest := by
  rw [pieces, missed]

/-- How a text falls into parts: nothing is left of it, or it starts with a name or with a character
that no name starts at. -/
inductive Falls (entries : List (String × Path)) : List Char → List Piece → Prop where
  | done : Falls entries [] []
  | name {entry : String × Path} {rest : List Char} {parts : List Piece} (among : entry ∈ entries)
      (found : starting? entries (entry.1.toList ++ rest) = some entry)
      (tail : Falls entries rest parts) :
      Falls entries (entry.1.toList ++ rest) (.name entry.1 entry.2 :: parts)
  | other {c : Char} {rest : List Char} {parts : List Piece}
      (missed : starting? entries (c :: rest) = none) (tail : Falls entries rest parts) :
      Falls entries (c :: rest) (.other c :: parts)

theorem falls_of_pieces (keys : Keyed entries) (text : List Char) :
    Falls entries text (pieces entries text) := by
  match text with
  | [] =>
    rw [pieces]
    exact .done
  | c :: text =>
    cases found : starting? entries (c :: text) with
    | none =>
      rw [pieces_other found]
      exact .other found (falls_of_pieces keys text)
    | some entry =>
      obtain ⟨among, rest, whole⟩ := starting_some found
      have isKey := keys entry among
      have shorter : rest.length < (c :: text).length := by
        rw [← whole, List.length_append, length_of_key isKey]
        omega
      rw [← whole] at found ⊢
      rw [pieces_name isKey found]
      exact .name among found (falls_of_pieces keys rest)
termination_by text.length
decreasing_by
  · simp
  · exact shorter

end Pieces

section Passes
variable {previous : Option Char} {entries later : List (String × Path)} {entry : String × Path}
  {key text rest : List Char} {c : Char}

@[simp] theorem restored_nil : restoredOnce entries [] = [] := by
  rw [restoredOnce, pieces]
  rfl

theorem restored_name (isKey : IsKey entry.1)
    (found : starting? entries (entry.1.toList ++ rest) = some entry) :
    restoredOnce entries (entry.1.toList ++ rest) = entry.2.text.toList ++ restoredOnce entries rest := by
  rw [restoredOnce, pieces_name isKey found]
  rfl

theorem restored_other (missed : starting? entries (c :: rest) = none) :
    restoredOnce entries (c :: rest) = c :: restoredOnce entries rest := by
  rw [restoredOnce, pieces_other missed]
  rfl

/-- A pass replaces a name at which it comes by. -/
theorem restored_entry (keys : Keyed entries)
    (unique : ∀ entry ∈ entries, ∀ other ∈ entries, entry.1 = other.1 → entry = other)
    (among : entry ∈ entries) (rest : List Char) :
    restoredOnce entries (entry.1.toList ++ rest) = entry.2.text.toList ++ restoredOnce entries rest :=
  restored_name (keys entry among)
    (starting_found keys unique among (List.prefix_append entry.1.toList rest))

/-- A pass leaves alone what holds no name and is not gone on with. -/
theorem restored_append (keys : Keyed entries)
    (clean : ∀ entry ∈ entries, ¬ entry.1.toList <:+: text) (ends : Ends rest.head?) :
    restoredOnce entries (text ++ rest) = text ++ restoredOnce entries rest := by
  induction text with
  | nil => rfl
  | cons c text ih =>
    have missed : starting? entries (c :: (text ++ rest)) = none :=
      starting_none.mpr fun entry among starts => clean entry among
        (prefix_of_ends (inner_of_key (keys entry among)) ends starts).isInfix
    rw [List.cons_append, restored_other missed, ih fun entry among inside =>
      clean entry among (inside.trans (List.suffix_cons c text).isInfix)]
    rfl

/-- A pass does not change where names end. -/
theorem head_of_restored (keys : Keyed entries) (ends : Ends rest.head?) :
    Ends (restoredOnce entries rest).head? := by
  cases rest with
  | nil => simpa using ends
  | cons c rest =>
    rw [restored_other (starting_of_ends keys ends)]
    exact ends

/-- What a pass puts together after a character of a name is no name that was not there before. -/
theorem prefix_of_restored (bounded : BoundedAfter (some c) entries text) (inner : isInner c = true)
    (all : ∀ c ∈ key, isInner c = true) (starts : key <+: restoredOnce entries text) :
    key <+: text := by
  induction key generalizing c text with
  | nil => exact List.nil_prefix
  | cons d key ih =>
    cases text with
    | nil =>
      rw [restored_nil] at starts
      exact starts
    | cons e text =>
      have missed : starting? entries (e :: text) = none := by
        refine starting_none.mpr fun entry among starts' => ?_
        obtain ⟨after, whole⟩ := starts'
        have outer := (bounded entry among [] after whole.symm).1 c rfl
        rw [inner] at outer
        cases outer
      rw [restored_other missed] at starts
      obtain ⟨rfl, goesOn⟩ := List.cons_prefix_cons.mp starts
      refine List.cons_prefix_cons.mpr ⟨rfl, ?_⟩
      exact ih (bounded_tail [d] bounded) (all d (by simp))
        (fun c among => all c (List.mem_cons_of_mem _ among)) goesOn

/-- A second pass finds a name where a first one has not found any exactly if it would have found it
before. -/
theorem prefix_after_restored (bounded : BoundedAfter previous entries (c :: rest))
    (all : ∀ c ∈ key, isInner c = true) (starts : key <+: c :: restoredOnce entries rest) :
    key <+: c :: rest := by
  cases key with
  | nil => exact List.nil_prefix
  | cons d key =>
    obtain ⟨rfl, goesOn⟩ := List.cons_prefix_cons.mp starts
    refine List.cons_prefix_cons.mpr ⟨rfl, ?_⟩
    exact prefix_of_restored (bounded_tail [d] bounded) (all d (by simp))
      (fun c among => all c (List.mem_cons_of_mem _ among)) goesOn

/-- Two passes with the halves of a table do what one with the whole table does. -/
theorem restored_twice (keys : Keyed (entries ++ later))
    (clean : Clean entries later)
    (bounded : BoundedAfter previous (entries ++ later) text) :
    restoredOnce later (restoredOnce entries text) = restoredOnce (entries ++ later) text := by
  have first : Keyed entries := fun entry among =>
    keys entry (List.mem_append_left _ among)
  have second : Keyed later := fun entry among =>
    keys entry (List.mem_append_right _ among)
  have falls := falls_of_pieces keys text
  generalize pieces (entries ++ later) text = parts at falls
  induction falls generalizing previous with
  | done => simp
  | @name entry rest parts among found tail ih =>
    have ends := ends_of_bounded among bounded
    rw [restored_name (keys entry among) found, ← ih (bounded_tail _ bounded)]
    rw [starting_append] at found
    cases early : starting? entries (entry.1.toList ++ rest) with
    | some entry' =>
      rw [early, Option.some_or] at found
      obtain rfl := Option.some.inj found
      have among' := (starting_some early).1
      rw [restored_name (first _ among') early, restored_append second (clean _ among')
        (head_of_restored first ends)]
    | none =>
      rw [early, Option.none_or] at found
      have isKey := keys entry among
      have absent : ∀ other ∈ entries, ¬ other.1.toList <:+: entry.1.toList := by
        intro other among' inside
        have same := inside.eq_of_length (by rw [length_of_key (first _ among'), length_of_key isKey])
        exact starting_none.mp early other among' (same ▸ List.prefix_append ..)
      rw [starting_before second isKey rest (restoredOnce entries rest)] at found
      rw [restored_append first absent ends, restored_name isKey found]
  | @other c rest parts missed tail ih =>
    obtain ⟨early, late⟩ :
        starting? entries (c :: rest) = none ∧ starting? later (c :: rest) = none := by
      rw [starting_append] at missed
      exact Option.or_eq_none_iff.mp missed
    have late' : starting? later (c :: restoredOnce entries rest) = none := by
      refine starting_none.mpr fun entry among starts => starting_none.mp late entry among ?_
      exact prefix_after_restored
        (fun entry among => bounded entry (List.mem_append_left _ among))
        (inner_of_key (second entry among)) starts
    rw [restored_other early, restored_other late', restored_other missed,
      ih (bounded_tail [c] bounded)]

/-- Nothing of a pass is left of the names. -/
theorem no_name_restored (keys : Keyed entries) (clean : Clean entries entries)
    (bounded : BoundedAfter previous entries text) (among : entry ∈ entries) :
    ¬ entry.1.toList <:+: restoredOnce entries text := by
  have inner := inner_of_key (keys entry among)
  have falls := falls_of_pieces keys text
  generalize pieces entries text = parts at falls
  induction falls generalizing previous with
  | done =>
    intro inside
    have length := length_of_key (keys entry among)
    rw [restored_nil, List.infix_nil] at inside
    rw [inside] at length
    cases length
  | @name other rest parts among' found tail ih =>
    rw [restored_name (keys other among') found]
    intro inside
    have ends := head_of_restored keys (ends_of_bounded among' bounded)
    rcases infix_of_ends inner ends inside with inside | inside
    · exact clean other among' entry among inside
    · exact ih (bounded_tail _ bounded) inside
  | @other c rest parts missed tail ih =>
    rw [restored_other missed]
    intro inside
    rcases List.infix_cons_iff.mp inside with starts | inside
    · exact starting_none.mp missed entry among (prefix_after_restored bounded inner starts)
    · exact ih (bounded_tail [c] bounded) inside

/-- Replacing one text is a pass with a table of one name. -/
theorem replace_eq_restored (isKey : IsKey entry.1) (text : List Char) :
    Text.replace entry.1.toList entry.2.text.toList text = restoredOnce [entry] text := by
  obtain ⟨head, tail, form⟩ := cons_of_key isKey
  rw [form, Text.replace]
  fun_induction Text.replaceFrom head tail entry.2.text.toList text with
  | case1 => rw [restored_nil]
  | case2 c rest beyond found ih =>
    have whole := after_iff.mp found
    rw [← form] at whole
    have starts : starting? [entry] (entry.1.toList ++ beyond) = some entry := by
      simp [starting?]
    rw [whole, restored_name isKey starts, ih]
  | case3 c rest missed ih =>
    have nothing : starting? [entry] (c :: rest) = none := by
      refine starting_none.mpr fun other among starts => ?_
      obtain ⟨beyond, whole⟩ := List.mem_singleton.mp among ▸ starts
      rw [form] at whole
      rw [after_iff.mpr whole.symm] at missed
      cases missed
    rw [restored_other nothing, ih]

/-- Replacing the names of a table one after the other is one pass. -/
theorem replaced_eq_restored (keys : Keyed entries) (clean : Clean entries entries)
    (bounded : BoundedAfter previous entries text) :
    replacedInTurn entries text = restoredOnce entries text := by
  induction entries using List.reverseRecOn with
  | nil =>
    have same : restoredOnce [] (text ++ []) = text ++ restoredOnce [] [] :=
      restored_append (fun _ among => nomatch among) (fun _ among => nomatch among)
        (by rintro c ⟨⟩)
    rw [restored_nil, List.append_nil] at same
    exact same.symm
  | append_singleton entries last ih =>
    have before : ∀ entry ∈ entries, entry ∈ entries ++ [last] := fun entry among =>
      List.mem_append_left _ among
    have earlier := ih (fun entry among => keys entry (before entry among))
      (fun entry among other among' => clean entry (before entry among) other (before other among'))
      fun entry among => bounded entry (before entry among)
    rw [replacedInTurn, List.foldl_append]
    change Text.replace _ _ (replacedInTurn entries text) = _
    rw [earlier, replace_eq_restored (keys last (by simp)), restored_twice keys _ bounded]
    intro entry among other among'
    exact clean entry (before entry among) other (List.mem_append_right _ among')

end Passes

section Parts
variable {previous : Option Char} {entries order : List (String × Path)} {entry : String × Path}
  {text : List Char}

/-- The parts make up the text. -/
theorem written_pieces (keys : Keyed entries) (text : List Char) :
    (pieces entries text).flatMap Piece.written = text := by
  have falls := falls_of_pieces keys text
  generalize pieces entries text = parts at falls ⊢
  induction falls with
  | done => rfl
  | name among found tail ih => rw [List.flatMap_cons, ih]; rfl
  | other missed tail ih => rw [List.flatMap_cons, ih]; rfl

/-- The names among the parts are in the table, with the paths that they have there. -/
theorem mem_of_pieces (keys : Keyed entries) {key : String} {path : Path}
    (among : Piece.name key path ∈ pieces entries text) : (key, path) ∈ entries := by
  have falls := falls_of_pieces keys text
  generalize pieces entries text = parts at falls among
  induction falls with
  | done => cases among
  | name listed found tail ih =>
    rcases List.mem_cons.mp among with own | among
    · obtain ⟨rfl, rfl⟩ := Piece.name.inj own
      exact listed
    · exact ih among
  | other missed tail ih =>
    rcases List.mem_cons.mp among with own | among
    · cases own
    · exact ih among

/-- Where a text ends that is not gone on with, the names in it end. -/
theorem prefix_of_last {key rest : List Char} (inner : ∀ c ∈ key, isInner c = true)
    (ends : Ends text.getLast?) (nonempty : text ≠ []) (starts : key <+: text ++ rest) :
    key <+: text := by
  rcases List.prefix_or_prefix_of_prefix starts (List.prefix_append text rest) with within | beyond
  · exact within
  · have outer := ends _ (List.getLast?_eq_some_getLast nonempty)
    rw [inner _ (beyond.subset (List.getLast_mem nonempty))] at outer
    cases outer

/-- Each occurrence of a name is one of the parts. -/
theorem pieces_of_occurrence (keys : Keyed entries)
    (unique : ∀ entry ∈ entries, ∀ other ∈ entries, entry.1 = other.1 → entry = other)
    {before after : List Char}
    (bounded : BoundedAfter previous entries (before ++ (entry.1.toList ++ after)))
    (among : entry ∈ entries) : pieces entries (before ++ (entry.1.toList ++ after)) =
      pieces entries before ++ .name entry.1 entry.2 :: pieces entries after := by
  have isKey := keys entry among
  have falls := falls_of_pieces keys before
  generalize pieces entries before = parts at falls ⊢
  induction falls generalizing previous with
  | done =>
    have starts := starting_found keys unique among (List.prefix_append entry.1.toList after)
    exact pieces_name isKey starts
  | @name other rest parts among' found tail ih =>
    rw [List.append_assoc] at bounded ⊢
    rw [starting_before keys (keys other among') rest (rest ++ (entry.1.toList ++ after))] at found
    rw [pieces_name (keys other among') found, ih (bounded_tail _ bounded)]
    rfl
  | @other c rest parts missed tail ih =>
    have ends := (bounded entry among (c :: rest) after rfl).1
    rw [List.getLast?_eq_some_getLast (List.cons_ne_nil c rest), Option.some_or,
      ← List.getLast?_eq_some_getLast] at ends
    have missed' : starting? entries (c :: (rest ++ (entry.1.toList ++ after))) = none :=
      starting_none.mpr fun other among' starts => starting_none.mp missed other among'
        (prefix_of_last (inner_of_key (keys other among')) ends (List.cons_ne_nil c rest) starts)
    rw [List.cons_append, pieces_other missed', ih (bounded_tail [c] bounded)]
    rfl

/-- The parts of a text do not depend on the order of the table. -/
theorem pieces_perm (keys : Keyed entries)
    (unique : ∀ entry ∈ entries, ∀ other ∈ entries, entry.1 = other.1 → entry = other)
    (perm : order.Perm entries) (text : List Char) : pieces order text = pieces entries text := by
  have keys' : Keyed order := fun entry among => keys entry (perm.mem_iff.mp among)
  have unique' : ∀ entry ∈ order, ∀ other ∈ order, entry.1 = other.1 → entry = other :=
    fun entry among other among' => unique entry (perm.mem_iff.mp among) other (perm.mem_iff.mp among')
  have falls := falls_of_pieces keys text
  generalize pieces entries text = parts at falls
  induction falls with
  | done => rw [pieces]
  | @name entry rest parts among found tail ih =>
    have starts := starting_found keys' unique' (perm.mem_iff.mpr among)
      (List.prefix_append entry.1.toList rest)
    rw [pieces_name (keys entry among) starts, ih]
  | other missed tail ih =>
    rw [pieces_other (starting_none.mpr fun entry among => starting_none.mp missed entry
      (perm.mem_iff.mp among)), ih]

end Parts

/-- A table has one path for each name. -/
theorem entries_unique (names : Names) : ∀ entry ∈ names.paths.entries,
    ∀ other ∈ names.paths.entries, entry.1 = other.1 → entry = other := by
  rintro ⟨key, path⟩ among ⟨key', path'⟩ among' rfl
  have first := (get_eq_some_iff names.paths key path).mpr among
  rw [(get_eq_some_iff names.paths key path').mpr among'] at first
  rw [Option.some.inj first]

/-- Restoring names replaces all of them at once: the answer is the one pass over the text, whose parts
are the text as it was and have each name of the table wherever it occurs, with its own path. So it is
the same whatever order the names are replaced in, and none of them is left. -/
theorem restore_at_once (names : Names) (text : String)
    (keys : Keyed names.paths.entries)
    (clean : Clean names.paths.entries names.paths.entries)
    (bounded : Bounded names.paths.entries text.toList) :
    (names.restore text).toList = restoredOnce names.paths.entries text.toList ∧
    (pieces names.paths.entries text.toList).flatMap Piece.written = text.toList ∧
    (∀ key path, .name key path ∈ pieces names.paths.entries text.toList →
      names.get? key = some path) ∧
    (∀ entry ∈ names.paths.entries, ∀ before after,
      text.toList = before ++ (entry.1.toList ++ after) →
      pieces names.paths.entries text.toList = pieces names.paths.entries before ++
        .name entry.1 entry.2 :: pieces names.paths.entries after) ∧
    (∀ order, order.Perm names.paths.entries →
      String.ofList (replacedInTurn order text.toList) = names.restore text) ∧
    ∀ entry ∈ names.paths.entries, ¬ entry.1.toList <:+: (names.restore text).toList := by
  have bounded' := bounded_iff.mpr bounded
  have unique := entries_unique names
  have restored : (names.restore text).toList = restoredOnce names.paths.entries text.toList := by
    rw [Names.restore, String.toList_ofList]
    exact replaced_eq_restored keys clean bounded'
  refine ⟨restored, written_pieces keys _, ?_, ?_, ?_, ?_⟩
  · intro key path among
    exact (get_eq_some_iff names.paths key path).mpr (mem_of_pieces keys among)
  · intro entry among before after whole
    rw [whole] at bounded' ⊢
    exact pieces_of_occurrence keys unique bounded' among
  · intro order perm
    have turned := replaced_eq_restored
      (fun entry among => keys entry (perm.mem_iff.mp among))
      (fun entry among other among' =>
        clean entry (perm.mem_iff.mp among) other (perm.mem_iff.mp among'))
      fun entry among => bounded' entry (perm.mem_iff.mp among)
    rw [turned, restoredOnce, pieces_perm keys unique perm, ← restoredOnce, ← restored,
      String.ofList_toList]
  · intro entry among
    rw [restored]
    exact no_name_restored keys clean bounded' among

/-- A name of equal digits. -/
def nameOf (digit : Char) : String := String.ofList (List.replicate 64 digit ++ ['.', 's', 'o', 'l'])

/-- The table of two files. -/
def twoNames : Names :=
  (Names.empty.insert (nameOf 'a') ⟨"Token.sol"⟩).insert (nameOf 'b') ⟨"lib/Owned.sol"⟩

/-- What a compiler says about them. -/
def twoMessages : String := String.ofList ((nameOf 'b').toList ++ ':' :: (nameOf 'a').toList)

/-- Both names are restored. -/
theorem two_names_restored :
    Keyed twoNames.paths.entries ∧ Clean twoNames.paths.entries twoNames.paths.entries ∧
    Bounded twoNames.paths.entries twoMessages.toList ∧
    twoNames.restore twoMessages = "lib/Owned.sol:Token.sol" := by
  have table : twoNames.paths.entries =
      [(nameOf 'a', ⟨"Token.sol"⟩), (nameOf 'b', ⟨"lib/Owned.sol"⟩)] := by
    decide +kernel
  have first : (nameOf 'a', ⟨"Token.sol"⟩) ∈ twoNames.paths.entries := by simp [table]
  have second : (nameOf 'b', ⟨"lib/Owned.sol"⟩) ∈ twoNames.paths.entries := by simp [table]
  have isKey : ∀ digit, IsDigit digit → IsKey (nameOf digit) := fun digit isDigit =>
    ⟨List.replicate 64 digit, List.length_replicate, fun c among => by
      rw [List.eq_of_mem_replicate among]
      exact isDigit, String.toList_ofList⟩
  have keys : Keyed twoNames.paths.entries := by
    rw [table, Keyed]
    simp only [List.forall_mem_cons, List.not_mem_nil, false_implies, implies_true, and_true]
    exact ⟨isKey _ (by decide), isKey _ (by decide)⟩
  have short : ∀ entry ∈ twoNames.paths.entries, entry.2.text.toList.length < 68 := by
    rw [table]
    decide +kernel
  have clean : Clean twoNames.paths.entries twoNames.paths.entries := by
    intro entry among other among' inside
    have fits := inside.length_le
    rw [length_of_key (keys other among')] at fits
    exact absurd (short entry among) (Nat.not_lt.mpr fits)
  have bounded : Bounded twoNames.paths.entries twoMessages.toList := by
    rw [twoMessages, String.toList_ofList]
    exact bounded_join keys (by decide) (bounded_alone keys (isKey 'b' (by decide)))
      (bounded_alone keys (isKey 'a' (by decide)))
  refine ⟨keys, clean, bounded, String.toList_inj.mp ?_⟩
  have between : Ends (some ':') := by
    rintro _ ⟨⟩
    decide
  rw [(restore_at_once twoNames twoMessages keys clean bounded).1, twoMessages, String.toList_ofList,
    restored_entry keys (entries_unique twoNames) second,
    restored_other (starting_of_ends keys between), ← List.append_nil (nameOf 'a').toList,
    restored_entry keys (entries_unique twoNames) first, restored_nil]
  rfl

end ContractBuild.RestoredNames
