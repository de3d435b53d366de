import ContractBuild.Source.Pattern

/-! Import directives. A directive is the word `import`, optionally the names it brings in and the
word `from`, and a string literal on one line, with blanks or comments between. Whatever else stands
in a text is passed over. -/
namespace ContractBuild.Source

/-- The bytes of a text from one offset up to another. -/
structure Span where
  start : Nat
  stop : Nat
  deriving DecidableEq

/-- An import directive: the path as written, without its quotes, and where it stands. -/
structure Import where
  path : String
  span : Span
  deriving DecidableEq

namespace Import

/-- The names a directive brings in, from the cell after the blanks that follow `import`: one name,
all under one name, or a list in braces. The result is what follows the names. -/
def afterNames? : List Cell → Option (List Cell)
  | [] => none
  | cell :: cells =>
    if cell.face = '*' then
      match (afterWord? ['a', 's'] (skipBlanks cells)).bind afterBlanks? with
      | some (name :: rest) =>
        if startsName name.face then some (rest.dropWhile continues) else none
      | _ => none
    else if cell.face = '{' then
      match cells.dropWhile fun inner => inner.face ≠ '}' with
      | _ :: rest => some rest
      | [] => none
    else if startsName cell.face then some (cells.dropWhile continues)
    else none
where
  continues (cell : Cell) : Bool := Text.isWord cell.face || cell.face == '$'

/-- What follows the names and the word `from`, if a directive has them, and the blanks after it. -/
def afterClause? (cells : List Cell) : Option (List Cell) :=
  ((afterNames? cells).bind afterBlanks?).bind fun rest =>
    (afterWord? ['f', 'r', 'o', 'm'] rest).bind afterBlanks?

/-- The literal that cells start with, if it is closed on its line, and the cells after it. -/
def literal? : List Cell → Option (Import × List Cell)
  | [] => none
  | quote :: cells =>
    if quote.face = '"' ∨ quote.face = '\'' then
      let inside := cells.takeWhile fun cell => cell.face ≠ quote.face ∧ cell.face ≠ '\n'
      match cells.dropWhile fun cell => cell.face ≠ quote.face ∧ cell.face ≠ '\n' with
      | close :: rest =>
        if close.face = quote.face then
          some (⟨String.ofList (inside.map Cell.char), ⟨quote.offset + 1, close.offset⟩⟩, rest)
        else none
      | [] => none
    else none

/-- The directive that cells start with, and the cells after it. -/
def match? (cells : List Cell) : Option (Import × List Cell) :=
  match (afterWord? ['i', 'm', 'p', 'o', 'r', 't'] cells).bind afterBlanks? with
  | none => none
  | some rest =>
    match afterClause? rest with
    | some target => literal? target
    | none => literal? rest

theorem afterNames?_length {cells rest : List Cell} (found : afterNames? cells = some rest) :
    rest.length ≤ cells.length := by
  cases cells with
  | nil => simp [afterNames?] at found
  | cons cell cells =>
    simp only [afterNames?] at found
    split at found
    · split at found
      · rename_i name tail names
        split at found
        · simp only [Option.some.injEq] at found
          subst found
          obtain ⟨blanks, word, spaced⟩ := Option.bind_eq_some_iff.mp names
          have := afterWord?_length word
          have := afterBlanks?_length spaced
          have := dropWhile_length (afterNames?.continues) tail
          have : (skipBlanks cells).length ≤ cells.length := dropWhile_length _ _
          simp only [List.length_cons] at *
          omega
        · simp at found
      · simp at found
    · split at found
      · split at found
        · rename_i close tail shape
          simp only [Option.some.injEq] at found
          subst found
          have := dropWhile_length (fun inner => decide (inner.face ≠ '}')) cells
          rw [shape] at this
          simp only [List.length_cons] at *
          omega
        · simp at found
      · split at found
        · simp only [Option.some.injEq] at found
          subst found
          exact Nat.le_succ_of_le (dropWhile_length _ _)
        · simp at found

theorem afterClause?_length {cells rest : List Cell} (found : afterClause? cells = some rest) :
    rest.length < cells.length := by
  obtain ⟨spaced, front, tail⟩ := Option.bind_eq_some_iff.mp found
  obtain ⟨named, names, blanks⟩ := Option.bind_eq_some_iff.mp front
  obtain ⟨worded, word, last⟩ := Option.bind_eq_some_iff.mp tail
  have := afterNames?_length names
  have := afterBlanks?_length blanks
  have := afterWord?_length word
  have := afterBlanks?_length last
  omega

theorem literal?_length {cells rest : List Cell} {found : Import}
    (read : literal? cells = some (found, rest)) : rest.length < cells.length := by
  cases cells with
  | nil => simp [literal?] at read
  | cons quote cells =>
    simp only [literal?] at read
    split at read
    · split at read
      · rename_i close tail shape
        split at read
        · simp only [Option.some.injEq, Prod.mk.injEq] at read
          obtain ⟨-, rfl⟩ := read
          have := dropWhile_length
            (fun cell => decide (cell.face ≠ quote.face ∧ cell.face ≠ '\n')) cells
          rw [shape] at this
          simp only [List.length_cons] at *
          omega
        · simp at read
      · simp at read
    · simp at read

theorem match?_length {cells rest : List Cell} {found : Import}
    (read : match? cells = some (found, rest)) : rest.length < cells.length := by
  unfold match? at read
  split at read
  · simp at read
  · rename_i inner front
    obtain ⟨worded, word, blanks⟩ := Option.bind_eq_some_iff.mp front
    have := afterWord?_length word
    have := afterBlanks?_length blanks
    split at read
    · rename_i target clause
      have := afterClause?_length clause
      have := literal?_length read
      omega
    · have := literal?_length read
      omega

/-- The directives in cells, `before` being the face of the cell before them. A directive starts
where no word goes on, and is looked for after the one found before it. -/
def scanCells (before : Option Char) (cells : List Cell) : List Import :=
  match cells with
  | [] => []
  | cell :: rest =>
    match _found : if isBoundary before then match? (cell :: rest) else none with
    | some (directive, beyond) => directive :: scanCells (some '"') beyond
    | none => scanCells (some cell.face) rest
termination_by cells.length
decreasing_by
  · split at _found
    · exact match?_length _found
    · simp at _found
  · simp

/-- The import directives of a source text, in order. -/
def scan (text : List Char) : List Import := scanCells none (cells false text)

end Import

end ContractBuild.Source
