import ContractBuild.Proofs.Shading
import ContractBuild.Source.Import

/-! Scanning in step. If two texts look alike but for what stands between the quotes of some literals,
and that is plain, then each part of a directive is found in one where it is found in the other, and
what follows it is alike again. -/
namespace ContractBuild.RespelledCells
open Shading Source

/-- The cells of a literal with something plain in it. -/
structure Literal where
  opening : Cell
  inside : List Cell
  closing : Cell
  quoted : IsQuote opening.face
  closed : closing.face = opening.face
  plain : ∀ cell ∈ inside, isPlain cell.face = true

namespace Literal

def cells (literal : Literal) : List Cell := literal.opening :: (literal.inside ++ [literal.closing])

/-- What stands between the quotes. -/
def text (literal : Literal) : String := String.ofList (literal.inside.map Cell.char)

end Literal

/-- A piece of a text that is spelled in a new way: a cell that goes on looking alike, or a literal
that gives way to another with the same quotes. -/
inductive Piece where
  | keep (old new : Cell) (same : new.face = old.face)
  | swap (old new : Literal) (same : new.opening.face = old.opening.face)

namespace Piece

def old : Piece → List Cell
  | keep old _ _ => [old]
  | swap old _ _ => old.cells

def new : Piece → List Cell
  | keep _ new _ => [new]
  | swap _ new _ => new.cells

end Piece

/-- The cells before the new spelling. -/
def oldCells (pieces : List Piece) : List Cell := pieces.flatMap Piece.old

/-- The cells after it. -/
def newCells (pieces : List Piece) : List Cell := pieces.flatMap Piece.new

section Cells
variable {old new : Cell} {same : new.face = old.face} {literal literal' : Literal}
  {same' : literal'.opening.face = literal.opening.face} {pieces : List Piece}

@[simp] theorem old_nil : oldCells [] = [] := rfl

@[simp] theorem new_nil : newCells [] = [] := rfl

@[simp] theorem old_keep : oldCells (.keep old new same :: pieces) = old :: oldCells pieces := rfl

@[simp] theorem new_keep : newCells (.keep old new same :: pieces) = new :: newCells pieces := rfl

@[simp] theorem old_swap : oldCells (.swap literal literal' same' :: pieces) =
    literal.opening :: (literal.inside ++ literal.closing :: oldCells pieces) := by
  simp [oldCells, Piece.old, Literal.cells]

@[simp] theorem new_swap : newCells (.swap literal literal' same' :: pieces) =
    literal'.opening :: (literal'.inside ++ literal'.closing :: newCells pieces) := by
  simp [newCells, Piece.new, Literal.cells]

@[simp] theorem old_append (first second : List Piece) :
    oldCells (first ++ second) = oldCells first ++ oldCells second := List.flatMap_append

@[simp] theorem new_append (first second : List Piece) :
    newCells (first ++ second) = newCells first ++ newCells second := List.flatMap_append

/-- Ends of a list of pieces that have equally many cells are the same end. -/
theorem end_unique {first second : List Piece} (one : first <:+ pieces) (other : second <:+ pieces)
    (same : (oldCells first).length = (oldCells second).length) : first = second := by
  have shorter : ∀ {first second : List Piece}, first <:+ second →
      (oldCells first).length = (oldCells second).length → first = second := by
    rintro first _ ⟨front, rfl⟩ same
    rw [old_append, List.length_append] at same
    cases front with
    | nil => rfl
    | cons piece front => cases piece <;> simp at same
  rcases List.suffix_or_suffix_of_suffix one other with inner | inner
  · exact shorter inner same
  · exact (shorter inner same.symm).symm

end Cells

/-- A part is found in both spellings or in neither, and what follows it is spelled alike again. -/
def InStep (parse : List Cell → Option (List Cell)) : Prop :=
  ∀ pieces, (parse (oldCells pieces) = none ∧ parse (newCells pieces) = none) ∨
    ∃ rest, rest <:+ pieces ∧ parse (oldCells pieces) = some (oldCells rest) ∧
      parse (newCells pieces) = some (newCells rest)

section Parts

/-- Parts that follow each other. -/
theorem in_step_bind {first second : List Cell → Option (List Cell)} (one : InStep first)
    (other : InStep second) : InStep fun cells => (first cells).bind second := by
  intro pieces
  rcases one pieces with ⟨old, new⟩ | ⟨middle, inner, old, new⟩
  · exact Or.inl ⟨by simp [old], by simp [new]⟩
  · rcases other middle with ⟨old', new'⟩ | ⟨rest, inner', old', new'⟩
    · exact Or.inl ⟨by simp [old, old'], by simp [new, new']⟩
    · exact Or.inr ⟨rest, inner'.trans inner, by simp [old, old'], by simp [new, new']⟩

/-- A test of faces that takes the literals with something plain in them as wholes: it stops at their
quotes or goes through all of them. -/
def TakesWhole (test : Char → Bool) : Prop :=
  ∀ quote, IsQuote quote → test quote = false ∨
    test quote = true ∧ ∀ c, isPlain c = true → test c = true

theorem takes_whole_of_stops {test : Char → Bool} (first : test '"' = false)
    (second : test '\'' = false) : TakesWhole test := by
  rintro quote (rfl | rfl)
  · exact Or.inl first
  · exact Or.inl second

/-- A literal that a test goes through is passed with all its cells. -/
private theorem drop_literal {test : Char → Bool} {literal : Literal} (rest : List Cell)
    (quote : test literal.opening.face = true) (plain : ∀ c, isPlain c = true → test c = true) :
    (literal.opening :: (literal.inside ++ literal.closing :: rest)).dropWhile
        (fun cell => test cell.face) = rest.dropWhile fun cell => test cell.face := by
  have inside : ∀ cell ∈ literal.inside, test cell.face = true :=
    fun cell among => plain _ (literal.plain cell among)
  simp only [List.dropWhile_cons, quote, if_true, List.dropWhile_append_of_pos inside,
    literal.closed]

theorem drop_in_step {test : Char → Bool} (whole : TakesWhole test) (pieces : List Piece) :
    ∃ rest, rest <:+ pieces ∧
      (oldCells pieces).dropWhile (fun cell => test cell.face) = oldCells rest ∧
      (newCells pieces).dropWhile (fun cell => test cell.face) = newCells rest := by
  induction pieces with
  | nil => exact ⟨[], List.suffix_rfl, rfl, rfl⟩
  | cons piece pieces ih =>
    obtain ⟨rest, inner, old, new⟩ := ih
    cases piece with
    | keep cell cell' same =>
      cases passes : test cell.face with
      | true =>
        refine ⟨rest, inner.trans (List.suffix_cons _ _), ?_, ?_⟩
        · simp only [old_keep, List.dropWhile_cons, passes, if_true, old]
        · simp only [new_keep, List.dropWhile_cons, same, passes, if_true, new]
      | false =>
        refine ⟨_, List.suffix_rfl, ?_, ?_⟩
        · simp [passes]
        · simp [same, passes]
    | swap literal literal' same =>
      rcases whole _ literal.quoted with stops | ⟨passes, plain⟩
      · refine ⟨_, List.suffix_rfl, ?_, ?_⟩
        · simp [stops]
        · simp [same, stops]
      · refine ⟨rest, inner.trans (List.suffix_cons _ _), ?_, ?_⟩
        · rw [old_swap, drop_literal _ passes plain, old]
        · rw [new_swap, drop_literal _ (by rw [same, passes]) plain, new]

theorem word_in_step {word : List Char} (letters : ∀ c ∈ word, ¬ IsQuote c) :
    InStep (afterWord? word) := by
  induction word with
  | nil => exact fun pieces => Or.inr ⟨pieces, List.suffix_rfl, rfl, rfl⟩
  | cons c word ih =>
    intro pieces
    cases pieces with
    | nil => exact Or.inl ⟨rfl, rfl⟩
    | cons piece pieces =>
      cases piece with
      | keep cell cell' same =>
        by_cases matched : cell.face = c
        · rcases ih (fun c inside => letters c (List.mem_cons_of_mem _ inside)) pieces with
            ⟨old, new⟩ | ⟨rest, inner, old, new⟩
          · exact Or.inl ⟨by simp [afterWord?, matched, old], by simp [afterWord?, same, matched, new]⟩
          · exact Or.inr ⟨rest, inner.trans (List.suffix_cons _ _),
              by simp [afterWord?, matched, old], by simp [afterWord?, same, matched, new]⟩
        · exact Or.inl ⟨by simp [afterWord?, matched], by simp [afterWord?, same, matched]⟩
      | swap literal literal' same =>
        have other : literal.opening.face ≠ c := by
          rintro rfl
          exact letters _ (by simp) literal.quoted
        exact Or.inl ⟨by simp [afterWord?, other], by simp [afterWord?, same, other]⟩

private theorem blank_stops : TakesWhole Text.isBlank :=
  takes_whole_of_stops (by decide) (by decide)

theorem blanks_in_step : InStep afterBlanks? := by
  intro pieces
  cases pieces with
  | nil => exact Or.inl ⟨rfl, rfl⟩
  | cons piece pieces =>
    cases piece with
    | keep cell cell' same =>
      cases blank : Text.isBlank cell.face with
      | true =>
        obtain ⟨rest, inner, old, new⟩ := drop_in_step blank_stops pieces
        refine Or.inr ⟨rest, inner.trans (List.suffix_cons _ _), ?_, ?_⟩
        · simpa [afterBlanks?, blank, skipBlanks] using old
        · simpa [afterBlanks?, same, blank, skipBlanks] using new
      | false => exact Or.inl ⟨by simp [afterBlanks?, blank], by simp [afterBlanks?, same, blank]⟩
    | swap literal literal' same =>
      have stops : Text.isBlank literal.opening.face = false := by
        rcases literal.quoted with quote | quote <;> rw [quote] <;> decide
      exact Or.inl ⟨by simp [afterBlanks?, stops], by simp [afterBlanks?, same, stops]⟩

private theorem name_stops : TakesWhole fun c => Text.isWord c || c == '$' :=
  takes_whole_of_stops (by decide +kernel) (by decide +kernel)

theorem brace_passes : TakesWhole fun c => decide (c ≠ '}') := by
  intro quote quoted
  refine Or.inr ⟨by simpa using quote_ne quoted (by decide), fun c plain => ?_⟩
  simpa using plain_ne plain (show isPlain '}' = false by decide)

/-- What follows a name. -/
def afterName? : List Cell → Option (List Cell)
  | [] => none
  | cell :: cells =>
    if startsName cell.face then some (cells.dropWhile Import.afterNames?.continues) else none

/-- What follows a list of names from behind its opening brace. -/
def afterList? (cells : List Cell) : Option (List Cell) :=
  match cells.dropWhile fun inner => inner.face ≠ '}' with
  | _ :: rest => some rest
  | [] => none

/-- What follows names is what follows one of their forms. -/
theorem after_names_cons (cell : Cell) (cells : List Cell) :
    Import.afterNames? (cell :: cells) =
      if cell.face = '*' then
        ((afterWord? ['a', 's'] (skipBlanks cells)).bind afterBlanks?).bind afterName?
      else if cell.face = '{' then afterList? cells
      else afterName? (cell :: cells) := by
  simp only [Import.afterNames?, afterList?, afterName?]
  split
  · cases (afterWord? ['a', 's'] (skipBlanks cells)).bind afterBlanks? with
    | none => rfl
    | some named => cases named <;> rfl
  · rfl

private theorem name_in_step : InStep afterName? := by
  intro pieces
  cases pieces with
  | nil => exact Or.inl ⟨rfl, rfl⟩
  | cons piece pieces =>
    cases piece with
    | keep cell cell' same =>
      simp only [old_keep, new_keep, afterName?, same]
      split
      · obtain ⟨rest, inner, old, new⟩ := drop_in_step name_stops pieces
        exact Or.inr ⟨rest, inner.trans (List.suffix_cons _ _), congrArg some old,
          congrArg some new⟩
      · exact Or.inl ⟨rfl, rfl⟩
    | swap literal literal' same =>
      have other : startsName literal.opening.face = false := by
        rcases literal.quoted with quote | quote <;> rw [quote] <;> decide
      exact Or.inl ⟨by simp [afterName?, other], by simp [afterName?, same, other]⟩

/-- All names under one: blanks, a word, and a name. -/
private theorem all_names_in_step : InStep fun cells =>
    ((afterWord? ['a', 's'] (skipBlanks cells)).bind afterBlanks?).bind afterName? := by
  have skip : InStep fun cells => some (skipBlanks cells) := by
    intro pieces
    obtain ⟨rest, inner, old, new⟩ := drop_in_step blank_stops pieces
    exact Or.inr ⟨rest, inner, congrArg some old, congrArg some new⟩
  have words : InStep fun cells =>
      ((afterWord? ['a', 's'] cells).bind afterBlanks?).bind afterName? :=
    in_step_bind (in_step_bind (word_in_step (by simp [IsQuote])) blanks_in_step) name_in_step
  exact @in_step_bind (fun cells => some (skipBlanks cells)) _ skip words

private theorem list_in_step : InStep afterList? := by
  intro pieces
  obtain ⟨middle, inner, old, new⟩ := drop_in_step brace_passes pieces
  simp only [ne_eq, decide_not] at old new
  simp only [afterList?, ne_eq, decide_not, old, new]
  cases middle with
  | nil => exact Or.inl ⟨rfl, rfl⟩
  | cons piece rest =>
    cases piece with
    | keep close close' same =>
      exact Or.inr ⟨rest, (List.suffix_cons _ rest).trans inner, rfl, rfl⟩
    | swap literal literal' same =>
      have stops := List.head?_dropWhile_not (fun cell => !decide (cell.face = '}'))
        (oldCells pieces)
      have brace : literal.opening.face = '}' := by simpa [old] using stops
      exact absurd brace (quote_ne literal.quoted (by decide))

theorem names_in_step : InStep Import.afterNames? := by
  -- A part after the first cell leaves an end of what follows that cell.
  have behind : ∀ {parse : List Cell → Option (List Cell)}, InStep parse → ∀ piece pieces,
      (parse (oldCells pieces) = none ∧ parse (newCells pieces) = none) ∨
        ∃ rest, rest <:+ piece :: pieces ∧ parse (oldCells pieces) = some (oldCells rest) ∧
          parse (newCells pieces) = some (newCells rest) :=
    fun steps piece pieces => (steps pieces).imp_right fun ⟨rest, inner, found⟩ =>
      ⟨rest, inner.trans (List.suffix_cons _ _), found⟩
  intro pieces
  cases pieces with
  | nil => exact Or.inl ⟨rfl, rfl⟩
  | cons piece pieces =>
    have name := name_in_step (piece :: pieces)
    cases piece with
    | keep cell cell' same =>
      simp only [old_keep, new_keep, after_names_cons, same] at name ⊢
      split
      · exact behind all_names_in_step _ _
      · split
        · exact behind list_in_step _ _
        · exact name
    | swap literal literal' same =>
      have star : literal.opening.face ≠ '*' := quote_ne literal.quoted (by decide)
      have brace : literal.opening.face ≠ '{' := quote_ne literal.quoted (by decide)
      simp only [old_swap, new_swap, after_names_cons, same, if_neg star, if_neg brace] at name ⊢
      exact name

theorem clause_in_step : InStep Import.afterClause? :=
  in_step_bind (in_step_bind names_in_step blanks_in_step)
    (in_step_bind (word_in_step (by simp [IsQuote])) blanks_in_step)

end Parts

section Literals
variable {pieces : List Piece}

/-- The quote of a literal is not passed by what looks for its end, and no newline is in between. -/
private theorem end_passes {quote : Char} (quoted : IsQuote quote) :
    TakesWhole fun c => decide (c ≠ quote ∧ c ≠ '\n') := by
  intro other quoted'
  by_cases same : other = quote
  · exact Or.inl (by simp [same])
  · refine Or.inr ⟨by simp [same, quote_ne quoted' (show '\n' ≠ '"' ∧ '\n' ≠ '\'' by decide)], ?_⟩
    intro c plain
    have apart : c ≠ quote := by
      rcases quoted with rfl | rfl
      · exact plain_ne plain (by decide)
      · exact plain_ne plain (by decide)
    simp [apart, plain_ne plain (show isPlain '\n' = false by decide)]

/-- The literal that cells start with, when neither its quote nor a newline stands in it. -/
theorem literal_read {opening closing : Cell} {inside : List Cell} (quoted : IsQuote opening.face)
    (closed : closing.face = opening.face)
    (goesOn : ∀ cell ∈ inside, cell.face ≠ opening.face ∧ cell.face ≠ '\n') (rest : List Cell) :
    Import.literal? (opening :: (inside ++ closing :: rest)) =
      some (⟨String.ofList (inside.map Cell.char), ⟨opening.offset + 1, closing.offset⟩⟩, rest) := by
  have passes : ∀ cell ∈ inside,
      decide (cell.face ≠ opening.face ∧ cell.face ≠ '\n') = true := by
    simpa using goesOn
  have opens : opening.face = '"' ∨ opening.face = '\'' := quoted
  simp only [Import.literal?, if_pos opens, List.takeWhile_append_of_pos passes,
    List.dropWhile_append_of_pos passes]
  simp [closed]

theorem literal_of_cells (literal : Literal) (rest : List Cell) :
    Import.literal? (literal.opening :: (literal.inside ++ literal.closing :: rest)) =
      some (⟨literal.text, ⟨literal.opening.offset + 1, literal.closing.offset⟩⟩, rest) := by
  refine literal_read literal.quoted literal.closed (fun cell among => ?_) rest
  have plain := literal.plain cell among
  refine ⟨?_, plain_ne plain (by decide)⟩
  rcases literal.quoted with quote | quote <;> rw [quote] <;> exact plain_ne plain (by decide)

/-- Where one spelling has a literal that is closed on its line, the other has one. -/
theorem literal_in_step (pieces : List Piece) :
    (Import.literal? (oldCells pieces)).isSome = (Import.literal? (newCells pieces)).isSome := by
  cases pieces with
  | nil => rfl
  | cons piece pieces =>
    cases piece with
    | swap literal literal' same => simp [literal_of_cells]
    | keep cell cell' same =>
      simp only [old_keep, new_keep, Import.literal?, same]
      split
      · rename_i quoted
        obtain ⟨rest, -, old, new⟩ := drop_in_step (end_passes quoted) pieces
        simp only [old, new]
        cases rest with
        | nil => rfl
        | cons piece rest =>
          cases piece with
          | keep close close' same' =>
            simp only [old_keep, new_keep, same']
            split <;> rfl
          | swap literal literal' same' =>
            simp only [old_swap, new_swap, same']
            split <;> rfl
      · rfl

end Literals

section Directives

/-- A directive is found in both spellings or in neither. In both its literal starts the same piece. -/
theorem match_in_step (pieces : List Piece) :
    (Import.match? (oldCells pieces) = none ∧ Import.match? (newCells pieces) = none) ∨
    ∃ target, target <:+ pieces ∧
      Import.match? (oldCells pieces) = Import.literal? (oldCells target) ∧
      Import.match? (newCells pieces) = Import.literal? (newCells target) := by
  have words : InStep fun cells =>
      (afterWord? ['i', 'm', 'p', 'o', 'r', 't'] cells).bind afterBlanks? :=
    in_step_bind (word_in_step (by simp [IsQuote])) blanks_in_step
  rcases words pieces with ⟨old, new⟩ | ⟨middle, inner, old, new⟩
  · exact Or.inl ⟨by simp [Import.match?, old], by simp [Import.match?, new]⟩
  · rcases clause_in_step middle with ⟨old', new'⟩ | ⟨target, inner', old', new'⟩
    · exact Or.inr ⟨middle, inner, by simp [Import.match?, old, old'],
        by simp [Import.match?, new, new']⟩
    · exact Or.inr ⟨target, inner'.trans inner, by simp [Import.match?, old, old'],
        by simp [Import.match?, new, new']⟩

theorem match_none_in_step {pieces : List Piece} (none : Import.match? (oldCells pieces) = none) :
    Import.match? (newCells pieces) = .none := by
  rcases match_in_step pieces with ⟨-, new⟩ | ⟨target, -, old, new⟩
  · exact new
  · have same := literal_in_step target
    rw [← old, ← new, none] at same
    simpa using same.symm

/-- A literal and what stands in it is all that is taken. -/
private theorem length_of_literal {cells rest : List Cell} {directive : Import}
    (read : Import.literal? cells = some (directive, rest)) :
    cells.length = directive.path.toList.length + 2 + rest.length := by
  cases cells with
  | nil => cases read
  | cons quote cells =>
    simp only [Import.literal?] at read
    split at read
    · split at read
      · rename_i close tail shape
        split at read
        · obtain ⟨rfl, rfl⟩ := Prod.mk.inj (Option.some.inj read)
          have whole := congrArg List.length (List.takeWhile_append_dropWhile
            (p := fun cell => decide (cell.face ≠ quote.face ∧ cell.face ≠ '\n')) (l := cells))
          rw [shape] at whole
          simp only [List.length_append, List.length_cons, String.toList_ofList,
            List.length_map] at whole ⊢
          omega
        · cases read
      · cases read
    · cases read

/-- A directive that is found with a literal that gives way to another is found with that. -/
theorem match_swap {front rest : List Piece} {literal literal' : Literal}
    {same : literal'.opening.face = literal.opening.face} {directive : Import}
    (found : Import.match? (oldCells (front ++ .swap literal literal' same :: rest)) =
      some (directive, oldCells rest))
    (long : directive.path.toList.length = literal.inside.length) :
    ∃ directive', Import.match? (newCells (front ++ .swap literal literal' same :: rest)) =
      some (directive', newCells rest) ∧ directive'.path = literal'.text := by
  rcases match_in_step (front ++ .swap literal literal' same :: rest) with
    ⟨old, -⟩ | ⟨target, inner, old, new⟩
  · cases found.symm.trans old
  · have own : Piece.swap literal literal' same :: rest <:+
        front ++ .swap literal literal' same :: rest := List.suffix_append _ _
    obtain rfl : target = .swap literal literal' same :: rest := by
      refine end_unique inner own ?_
      have length := length_of_literal (old.symm.trans found)
      simp only [old_swap, List.length_cons, List.length_append] at length ⊢
      omega
    rw [new_swap, literal_of_cells] at new
    exact ⟨_, new, rfl⟩

end Directives

section Scans
variable {before : Option Char} {cell : Cell} {cells beyond : List Cell} {directive : Import}

theorem scan_found (boundary : isBoundary before = true)
    (found : Import.match? cells = some (directive, beyond)) :
    Import.scanCells before cells = directive :: Import.scanCells (some '"') beyond := by
  cases cells with
  | nil => simp [Import.match?, afterWord?] at found
  | cons cell cells =>
    rw [Import.scanCells]
    split
    · rename_i found'
      rw [if_pos boundary, found] at found'
      obtain ⟨rfl, rfl⟩ := Prod.mk.inj (Option.some.inj found')
      rfl
    · rename_i missed
      rw [if_pos boundary, found] at missed
      cases missed

theorem scan_passed
    (missed : (if isBoundary before then Import.match? (cell :: cells) else none) = none) :
    Import.scanCells before (cell :: cells) = Import.scanCells (some cell.face) cells := by
  rw [Import.scanCells]
  split
  · rename_i found
    cases missed.symm.trans found
  · rfl

end Scans

/-- The directives of a text are those whose literals give way to others. -/
inductive Respelled : Option Char → List Piece → List String → Prop where
  | done {before : Option Char} : Respelled before [] []
  | pass {before : Option Char} {old new : Cell} {same : new.face = old.face}
      {pieces : List Piece} {names : List String}
      (missed : (if isBoundary before then
        Import.match? (oldCells (.keep old new same :: pieces)) else none) = none)
      (tail : Respelled (some old.face) pieces names) :
      Respelled before (.keep old new same :: pieces) names
  | found {before : Option Char} {front rest : List Piece} {old new : Literal}
      {same : new.opening.face = old.opening.face} {directive : Import} {names : List String}
      (boundary : isBoundary before = true)
      (matched : Import.match? (oldCells (front ++ .swap old new same :: rest)) =
        some (directive, oldCells rest))
      (long : directive.path.toList.length = old.inside.length)
      (tail : Respelled (some '"') rest names) :
      Respelled before (front ++ .swap old new same :: rest) (new.text :: names)

/-- After the new spelling the same directives are there, with the new texts as their paths. -/
theorem scan_respelled {before : Option Char} {pieces : List Piece} {names : List String}
    (respelled : Respelled before pieces names) :
    (Import.scanCells before (newCells pieces)).map Import.path = names := by
  induction respelled with
  | done => rw [new_nil, Import.scanCells]; rfl
  | @pass before old new same pieces names missed tail ih =>
    have missed' : (if isBoundary before then
        Import.match? (new :: newCells pieces) else none) = none := by
      split at missed
      · rename_i boundary
        rw [if_pos boundary]
        exact match_none_in_step missed
      · rename_i inside
        rw [if_neg inside]
    rw [new_keep, scan_passed missed', same, ih]
  | @found before front rest old new same directive names boundary matched long tail ih =>
    obtain ⟨directive', matched', path⟩ := match_swap matched long
    rw [scan_found boundary matched', List.map_cons, path, ih]

end ContractBuild.RespelledCells
