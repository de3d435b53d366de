import ContractBuild.Source.Lexeme
import ContractBuild.Text.Utf8

/-! Source text with its comments blanked out, and on request the insides of its string literals
too. Every character keeps its place, so what is found in the masked text is found in the text. -/
namespace ContractBuild.Source

/-- A character of a source text, where its UTF-8 form starts, and whether it is blanked out. -/
structure Cell where
  char : Char
  offset : Nat
  hidden : Bool
  deriving DecidableEq

namespace Cell

/-- What a search sees of the character. A newline is never blanked out. -/
def face (cell : Cell) : Char :=
  if cell.hidden ∧ cell.char ≠ '\n' then ' ' else cell.char

/-- The cells of characters that follow each other from an offset on. -/
def ofChars (hidden : Bool) : (offset : Nat) → List Char → List Cell
  | _, [] => []
  | offset, c :: text => ⟨c, offset, hidden⟩ :: ofChars hidden (offset + c.utf8Size) text

/-- The face of a cell, as wide as the UTF-8 form of its character. -/
def mask (cell : Cell) : List Char :=
  if cell.hidden ∧ cell.char ≠ '\n' then List.replicate cell.char.utf8Size ' ' else [cell.char]

end Cell

/-- The cells of a token. -/
def Lexeme.cells (hideLiterals : Bool) (offset : Nat) : Lexeme → List Cell
  | code c => Cell.ofChars false offset [c]
  | lineComment body => Cell.ofChars true offset ('/' :: '/' :: body)
  | blockComment body => Cell.ofChars true offset ('/' :: '*' :: body)
  | literal quote inside close =>
    Cell.ofChars false offset [quote] ++
      Cell.ofChars hideLiterals (offset + quote.utf8Size) inside ++
      Cell.ofChars false (offset + quote.utf8Size + Text.byteLength inside) close.toList

/-- The cells of tokens that follow each other from an offset on. -/
def cellsFrom (hideLiterals : Bool) : (offset : Nat) → List Lexeme → List Cell
  | _, [] => []
  | offset, lexeme :: rest =>
    lexeme.cells hideLiterals offset ++
      cellsFrom hideLiterals (offset + Text.byteLength lexeme.text) rest

/-- The cells of a source text, comments hidden. -/
def cells (hideLiterals : Bool) (text : List Char) : List Cell :=
  cellsFrom hideLiterals 0 (Lexeme.scan text)

/-- A source text with its comments replaced by spaces, and with `hideLiterals` also the insides of
its string literals; newlines stay, and so does the place of every other byte. -/
def mask (hideLiterals : Bool) (text : List Char) : List Char :=
  (cells hideLiterals text).flatMap Cell.mask

end ContractBuild.Source
