import ContractBuild.Source.Mask
import ContractBuild.Text.Word

/-! The parts that directives and declarations are made of, each taken off the front of a list of
cells. A part looks at the faces of the cells only. -/
namespace ContractBuild.Source

/-- The cells after a word, if they start with it. -/
def afterWord? : (word : List Char) → List Cell → Option (List Cell)
  | [], cells => some cells
  | _ :: _, [] => none
  | c :: word, cell :: cells => if cell.face = c then afterWord? word cells else none

/-- The cells without the blanks at their start. -/
def skipBlanks (cells : List Cell) : List Cell := cells.dropWhile fun cell => Text.isBlank cell.face

/-- The cells after one blank or more, if they start with one. -/
def afterBlanks? : List Cell → Option (List Cell)
  | [] => none
  | cell :: cells => if Text.isBlank cell.face then some (skipBlanks cells) else none

/-- Whether a character can start a name. -/
def startsName (c : Char) : Bool :=
  ('A' ≤ c && c ≤ 'Z') || ('a' ≤ c && c ≤ 'z') || c == '_' || c == '$'

/-- Whether no word goes on over the place between two characters. -/
def isBoundary (before : Option Char) : Bool :=
  match before with
  | some c => !Text.isWord c
  | none => true

theorem afterWord?_length {word : List Char} {cells rest : List Cell}
    (found : afterWord? word cells = some rest) : rest.length + word.length = cells.length := by
  induction word generalizing cells with
  | nil => simp_all [afterWord?]
  | cons c word ih =>
    cases cells with
    | nil => simp [afterWord?] at found
    | cons cell cells =>
      simp only [afterWord?] at found
      split at found
      · have := ih found
        simp only [List.length_cons]
        omega
      · simp at found

theorem dropWhile_length (p : Cell → Bool) (cells : List Cell) :
    (cells.dropWhile p).length ≤ cells.length := (List.dropWhile_sublist p).length_le

theorem afterBlanks?_length {cells rest : List Cell} (found : afterBlanks? cells = some rest) :
    rest.length < cells.length := by
  cases cells with
  | nil => simp [afterBlanks?] at found
  | cons cell cells =>
    simp only [afterBlanks?] at found
    split at found
    · simp only [Option.some.injEq] at found
      subst found
      exact Nat.lt_succ_of_le (dropWhile_length _ _)
    · simp at found

end ContractBuild.Source
