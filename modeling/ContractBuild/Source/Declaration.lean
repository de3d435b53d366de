import ContractBuild.Source.Pattern

/-! Declarations: the names of the contracts, libraries and interfaces that a source text
declares. -/
namespace ContractBuild.Source

namespace Declaration

/-- Whether a name goes on with a character. -/
def continues (c : Char) : Bool := startsName c || ('0' ≤ c && c ≤ '9')

/-- The words that introduce a declared object. -/
def keywords : List (List Char) :=
  ["contract".toList, "library".toList, "interface".toList]

/-- What follows the word `abstract` and blanks, if cells start so. -/
def afterAbstract? (cells : List Cell) : Option (List Cell) :=
  (afterWord? "abstract".toList cells).bind afterBlanks?

/-- The name that a keyword introduces at the start of cells, and the cells after it. -/
def named? (cells : List Cell) : Option (String × List Cell) :=
  match (keywords.findSome? fun word => afterWord? word cells).bind afterBlanks? with
  | some (first :: rest) =>
    if startsName first.face then
      let name := first :: rest.takeWhile fun cell => continues cell.face
      some (String.ofList (name.map Cell.face), rest.dropWhile fun cell => continues cell.face)
    else none
  | _ => none

/-- The name declared at the start of cells, and the cells after it. -/
def match? (cells : List Cell) : Option (String × List Cell) :=
  match afterAbstract? cells with
  | some rest => named? rest
  | none => named? cells

theorem named?_length {cells rest : List Cell} {name : String}
    (found : named? cells = some (name, rest)) : rest.length < cells.length := by
  unfold named? at found
  split at found
  · rename_i first tail front
    split at found
    · simp only [Option.some.injEq, Prod.mk.injEq] at found
      obtain ⟨-, rfl⟩ := found
      obtain ⟨worded, word, blanks⟩ := Option.bind_eq_some_iff.mp front
      obtain ⟨keyword, -, taken⟩ := List.exists_of_findSome?_eq_some word
      have := afterWord?_length taken
      have := afterBlanks?_length blanks
      have := dropWhile_length (fun cell => continues cell.face) tail
      simp only [List.length_cons] at *
      omega
    · simp at found
  · simp at found

theorem match?_length {cells rest : List Cell} {name : String}
    (found : match? cells = some (name, rest)) : rest.length < cells.length := by
  unfold match? at found
  split at found
  · rename_i inner front
    obtain ⟨worded, word, blanks⟩ := Option.bind_eq_some_iff.mp front
    have := afterWord?_length word
    have := afterBlanks?_length blanks
    have := named?_length found
    omega
  · exact named?_length found

/-- The names declared in cells, `before` being the face of the cell before them. -/
def scanCells (before : Option Char) (cells : List Cell) : List String :=
  match cells with
  | [] => []
  | cell :: rest =>
    match _found : if isBoundary before then match? (cell :: rest) else none with
    | some (name, beyond) => name :: scanCells name.toList.getLast? beyond
    | none => scanCells (some cell.face) rest
termination_by cells.length
decreasing_by
  · split at _found
    · exact match?_length _found
    · simp at _found
  · simp

/-- The names declared in a source text, in order. String literals are passed over. -/
def scan (text : List Char) : List String := scanCells none (cells true text)

end Declaration

end ContractBuild.Source
