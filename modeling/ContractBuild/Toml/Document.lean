import ContractBuild.Toml.Lexeme
import ContractBuild.Toml.Table

/-! TOML documents. The lexemes are put together by a machine with a stack of open brackets; the
machine gives the lines of the document, and the lines fill tables. -/
namespace ContractBuild.Toml

/-- A line of a document: keys are lists of parts, the last part apart. -/
inductive Line where
  | table (path : List String) (key : String)
  | tables (path : List String) (key : String)
  | entry (path : List String) (key : String) (value : Value)

/-- What a key that is being read belongs to. -/
inductive KeyUse where
  | table
  | tables
  | entry
  /-- A member of an inline table. -/
  | member
  deriving DecidableEq

/-- What is open around the place that is being read. -/
inductive Frame where
  /-- A line whose key is complete. -/
  | line (path : List String) (key : String)
  /-- An array, with its items, last first. -/
  | array (items : List Value)
  /-- An inline table. -/
  | members (entries : Entries)
  /-- An inline table with a key whose value is to come. -/
  | member (entries : Entries) (path : List String) (key : String)

/-- What may come next. -/
inductive Expect where
  | line
  /-- A key, or the second bracket of a header of tables. -/
  | header
  /-- A part of a key, the parts before it being given, last first. -/
  | keyPart (use : KeyUse) (parts : List String)
  /-- A dot, or the end of a key. -/
  | keyEnd (use : KeyUse) (parts : List String)
  /-- The second bracket that ends a header of tables. -/
  | headerEnd (path : List String) (key : String)
  | value
  /-- An item of an array, or its end. -/
  | itemOrEnd
  /-- The first member of an inline table, or its end. -/
  | memberOrEnd
  /-- More of a value without quotes. -/
  | scalar (text : List Char)
  /-- A comma, or the end of what is open. -/
  | separator
  | lineEnd

/-- A document read up to some lexeme. -/
structure Reader where
  /-- The complete lines, last first. -/
  lines : List Line
  stack : List Frame
  expect : Expect

namespace Reader

/-- Before the first lexeme. -/
def start : Reader := ⟨[], [], .line⟩

/-- Brackets that may be open at once, and parts that a key may have. -/
def maxDepth : Nat := 79

/-- The reader after a value is complete. -/
def complete (reader : Reader) (value : Value) : Option Reader :=
  match reader.stack with
  | .line path key :: _ => some ⟨.entry path key value :: reader.lines, [], .lineEnd⟩
  | .array items :: stack =>
    some { reader with stack := .array (value :: items) :: stack, expect := .separator }
  | .member entries path key :: stack =>
    (entries.insert path key value).map fun entries =>
      { reader with stack := .members entries :: stack, expect := .separator }
  | _ => none

/-- The reader after a closing bracket. -/
def close (reader : Reader) (bracket : Char) : Option Reader :=
  match reader.stack, bracket with
  | .array items :: stack, ']' => { reader with stack }.complete (.array items.reverse)
  | .members entries :: stack, '}' =>
    { reader with stack }.complete (.table (Node.toEntries entries))
  | _, _ => none

/-- The reader after a key is complete. -/
def endKey (reader : Reader) (use : KeyUse) (path : List String) (key : String) : Option Reader :=
  match use, reader.stack with
  | .table, _ => some { reader with lines := .table path key :: reader.lines, expect := .lineEnd }
  | .tables, _ => some { reader with expect := .headerEnd path key }
  | .entry, _ => some { reader with stack := [.line path key], expect := .value }
  | .member, .members entries :: stack =>
    some { reader with stack := .member entries path key :: stack, expect := .value }
  | .member, _ => none

/-- The mark that ends a key. -/
def keyMark (use : KeyUse) : Char :=
  match use with
  | .table | .tables => ']'
  | .entry | .member => '='

/-- Whether brackets are open in which lines may break. -/
def inArray (reader : Reader) : Bool :=
  match reader.stack with
  | .array _ :: _ => true
  | _ => false

/-- The part of a key that a token writes. -/
def keyPart? : Token → Option String
  | .word text => some (String.ofList text)
  | .string text false => some (String.ofList text)
  | _ => none

/-- The text that a token adds to a value without quotes. -/
def piece? : Token → Option (List Char)
  | .word text => some text
  | .mark c => if ['+', '.', ':'].contains c then some [c] else none
  | _ => none

/-- The reader after one more bracket is opened. -/
def openBracket (reader : Reader) (frame : Frame) (expect : Expect) : Option Reader :=
  if reader.stack.length ≤ maxDepth then some { reader with stack := frame :: reader.stack, expect }
  else none

/-- The reader after the first token of a value. -/
def beginValue (reader : Reader) (token : Token) : Option Reader :=
  match token with
  | .string text _ => reader.complete (.string (String.ofList text))
  | .mark '[' => reader.openBracket (.array []) .itemOrEnd
  | .mark '{' => reader.openBracket (.members []) .memberOrEnd
  | token => (piece? token).map fun text => { reader with expect := .scalar text }

/-- The reader after a token of a key that is being read. -/
def readKey (reader : Reader) (use : KeyUse) (parts : List String) (token : Token) :
    Option Reader :=
  match keyPart? token with
  | some part =>
    if parts.length < maxDepth then some { reader with expect := .keyEnd use (part :: parts) }
    else none
  | none => none

/-- The reader after one more lexeme, unless it follows a value without quotes. -/
def stepSettled (reader : Reader) (lexeme : Lexeme) : Option Reader :=
  match reader.expect, lexeme.token with
  | .line, .newline => some reader
  | .line, .mark '[' => some { reader with expect := .header }
  | .line, token => reader.readKey .entry [] token
  | .header, .mark '[' =>
    if lexeme.gap = .none then some { reader with expect := .keyPart .tables [] } else none
  | .header, token => reader.readKey .table [] token
  | .keyPart use parts, token => reader.readKey use parts token
  | .keyEnd use parts, .mark c =>
    if c = '.' then some { reader with expect := .keyPart use parts }
    else if c = keyMark use then
      match parts with
      | key :: before => reader.endKey use before.reverse key
      | [] => none
    else none
  | .headerEnd path key, .mark ']' =>
    if lexeme.gap = .none then
      some { reader with lines := .tables path key :: reader.lines, expect := .lineEnd }
    else none
  | .value, token => reader.beginValue token
  | .itemOrEnd, .newline => some reader
  | .itemOrEnd, .mark ']' => reader.close ']'
  | .itemOrEnd, token => reader.beginValue token
  | .memberOrEnd, .mark '}' => reader.close '}'
  | .memberOrEnd, token => reader.readKey .member [] token
  | .separator, .newline => if reader.inArray then some reader else none
  | .separator, .mark ',' =>
    some { reader with expect := if reader.inArray then .itemOrEnd else .keyPart .member [] }
  | .separator, .mark c => reader.close c
  | .lineEnd, .newline => some { reader with expect := .line }
  | _, _ => none

/-- The reader after a value without quotes has come to its end. -/
def settle (reader : Reader) : Option Reader :=
  match reader.expect with
  | .scalar text => (Scalar.value? text).bind reader.complete
  | _ => some reader

/-- The reader after one more lexeme. A value without quotes goes on as long as its pieces touch; a
date goes on after one space. -/
def step (reader : Reader) (lexeme : Lexeme) : Option Reader :=
  match reader.expect, piece? lexeme.token with
  | .scalar text, some more =>
    if lexeme.gap = .none then some { reader with expect := .scalar (text ++ more) }
    else if lexeme.gap = .space ∧ Scalar.isDate text then
      some { reader with expect := .scalar (text ++ ' ' :: more) }
    else none
  | _, _ => reader.settle.bind fun reader => reader.stepSettled lexeme

end Reader

/-- The lines of a document. -/
def Line.ofLexemes? (lexemes : List Lexeme) : Option (List Line) := do
  let reader ← lexemes.foldlM Reader.step Reader.start
  let reader ← reader.settle
  match reader.expect with
  | .line | .lineEnd => return reader.lines.reverse
  | _ => none

/-- The entries that lines write before the next header. -/
def Line.takeEntries : List Line → List (List String × String × Value)
  | .entry path key value :: lines => (path, key, value) :: takeEntries lines
  | _ => []

/-- The tables that lines fill. -/
def Line.fill (entries : Entries) : List Line → Option Entries
  | [] => some entries
  | .table path key :: lines =>
    (entries.state path key (takeEntries lines)).bind fun entries => fill entries lines
  | .tables path key :: lines =>
    (entries.push path key (takeEntries lines)).bind fun entries => fill entries lines
  | .entry .. :: lines => fill entries lines

/-- A text without the mark that may tell the order of its bytes. -/
def withoutOrderMark : List Char → List Char
  | '\uFEFF' :: text => text
  | text => text

/-- The table that a document writes, if it is well-formed. -/
def parse? (text : List Char) : Option (List (String × Value)) := do
  let lexemes ← Lexeme.scan .none (withoutOrderMark text)
  let lines ← Line.ofLexemes? lexemes
  let top ← Entries.insertAll (Line.takeEntries lines) []
  return Node.toEntries (← Line.fill top lines)

end ContractBuild.Toml
