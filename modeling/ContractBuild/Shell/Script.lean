import ContractBuild.Bytes
import ContractBuild.Text.Utf8

/-! Shell scripts. A shell works on bytes; here each byte is held as the character with its
number. -/
namespace ContractBuild.Shell

/-- Bytes, each as the character with its number. -/
abbrev Raw := List Char

namespace Raw

/-- The text that stands for bytes. -/
def ofBytes (bytes : Bytes) : Raw := bytes.map fun byte => Char.ofNat byte.toNat

/-- The bytes that a text stands for. -/
def toBytes (text : Raw) : Bytes := text.map fun c => UInt8.ofNat c.toNat

/-- The UTF-8 form of a text. -/
def ofString (text : String) : Raw := ofBytes (Text.utf8 text.toList)

/-- The text of which this is the UTF-8 form, as far as it is one. -/
def text (raw : Raw) : String := String.ofList (Text.ofUtf8Lossy raw.toBytes)

end Raw

mutual

/-- A piece of a word. -/
inductive Piece where
  /-- Characters that are not quoted. -/
  | plain (text : Raw)
  /-- Characters that stand for themselves. -/
  | fixed (text : Raw)
  /-- What stands between double quotes. -/
  | quoted (pieces : List Piece)
  /-- The value of a variable or parameter. -/
  | variable (name : Raw)
  /-- The length of a value. -/
  | size (name : Raw)
  /-- A value changed as an operator says. -/
  | changed (name operator : Raw) (argument : List Piece)
  /-- What commands write. -/
  | output (commands : List Command)
  /-- The value of an arithmetic expression. -/
  | arithmetic (expression : List Piece)

/-- Where a command reads from or writes to. -/
inductive Redirect where
  | toFile (descriptor : Nat) (append : Bool) (target : List Piece)
  | toDescriptor (descriptor target : Nat)
  | fromFile (source : List Piece)
  | fromText (text : List Piece)

/-- A command. -/
inductive Command where
  /-- A program with its arguments; without words, only the assignments are made. -/
  | simple (line : Nat) (assignments : List (Raw × List Piece)) (words : List (List Piece))
      (redirects : List Redirect)
  /-- Commands of which each reads what the one before it writes. -/
  | pipeline (negated : Bool) (stages : List Command)
  /-- A second command if the first succeeds. -/
  | both (first second : Command)
  /-- A second command if the first fails. -/
  | either (first second : Command)
  | choose (branches : List (List Command × List Command)) (otherwise : List Command)
  /-- A loop over words, or over the arguments. -/
  | each (name : Raw) (words : Option (List (List Piece))) (body : List Command)
  /-- A loop that goes on while the condition succeeds, or until it does. -/
  | loop (untilSuccess : Bool) (condition body : List Command)
  | select (word : List Piece) (cases : List (List (List Piece) × List Command))
  | group (body : List Command)
  /-- Commands whose changes to the shell are forgotten. -/
  | apart (body : List Command)
  | redirected (command : Command) (redirects : List Redirect)
  | define (name : Raw) (body : Command)

end

instance : Inhabited Command := ⟨.group []⟩

/-- A word of a command. -/
abbrev Word := List Piece

end ContractBuild.Shell
