import ContractBuild.Json.Token

/-! JSON documents as they are written. The tokens of a document are put together by a machine with
a stack of open brackets, so nesting has no limit here; limits belong to the readers of a
document. -/
namespace ContractBuild.Json

/-- A value as it is written: numbers and strings keep their spelling, members their order. -/
inductive Tree where
  | null
  | bool (value : Bool)
  | number (numeral : Numeral)
  | string (raw : List Char)
  | array (items : List Tree)
  | object (members : List (List Char × Tree))
  deriving Inhabited

namespace Tree

/-- An open bracket, with what has been read inside it, last first. -/
inductive Frame where
  | array (items : List Tree)
  | object (members : List (List Char × Tree))
  /-- An object whose next member has its key but not its value. -/
  | member (members : List (List Char × Tree)) (key : List Char)

/-- What may come next. -/
inductive Expect where
  | value
  /-- The first item of an array, or its end. -/
  | itemOrEnd
  /-- The first key of an object, or its end. -/
  | keyOrEnd
  | key
  | colon (key : List Char)
  /-- A comma, or the end of what is open. -/
  | separator
  /-- Nothing: the document is complete. -/
  | done (tree : Tree)

/-- A document read up to some token. -/
structure Reader where
  stack : List Frame
  expect : Expect

namespace Reader

/-- Before the first token. -/
def start : Reader := ⟨[], .value⟩

/-- The reader after a value is complete, `stack` being what is open around the value. -/
def complete (tree : Tree) : (stack : List Frame) → Option Reader
  | [] => some ⟨[], .done tree⟩
  | .array items :: stack => some ⟨.array (tree :: items) :: stack, .separator⟩
  | .member members key :: stack => some ⟨.object ((key, tree) :: members) :: stack, .separator⟩
  | .object _ :: _ => none

/-- The reader after the first token of a value. -/
def beginValue (stack : List Frame) : Token → Option Reader
  | .null => complete .null stack
  | .bool value => complete (.bool value) stack
  | .number numeral => complete (.number numeral) stack
  | .string raw => complete (.string raw) stack
  | .mark c =>
    if c = '[' then some ⟨.array [] :: stack, .itemOrEnd⟩
    else if c = '{' then some ⟨.object [] :: stack, .keyOrEnd⟩
    else none

/-- The reader after one more token, if it may come next. -/
def step (reader : Reader) (token : Token) : Option Reader :=
  match reader.expect, reader.stack, token with
  | .value, stack, token => beginValue stack token
  | .itemOrEnd, .array items :: stack, .mark ']' => complete (.array items.reverse) stack
  | .itemOrEnd, stack, token => beginValue stack token
  | .keyOrEnd, .object members :: stack, .mark '}' => complete (.object members.reverse) stack
  | .keyOrEnd, stack, .string raw => some ⟨stack, .colon raw⟩
  | .key, stack, .string raw => some ⟨stack, .colon raw⟩
  | .colon key, .object members :: stack, .mark ':' => some ⟨.member members key :: stack, .value⟩
  | .separator, .array items :: stack, .mark ',' => some ⟨.array items :: stack, .value⟩
  | .separator, .array items :: stack, .mark ']' => complete (.array items.reverse) stack
  | .separator, .object members :: stack, .mark ',' => some ⟨.object members :: stack, .key⟩
  | .separator, .object members :: stack, .mark '}' => complete (.object members.reverse) stack
  | _, _, _ => none

/-- The reader after more tokens. -/
def run (reader : Reader) : List Token → Option Reader
  | [] => some reader
  | token :: tokens => (reader.step token).bind fun next => run next tokens

end Reader

/-- The document that tokens make up, if they make up one. -/
def ofTokens? (tokens : List Token) : Option Tree :=
  match Reader.start.run tokens with
  | some ⟨[], .done tree⟩ => some tree
  | _ => none

/-- The document that a text writes, if it writes one. -/
def parse? (text : List Char) : Option Tree := (Token.scan text).bind ofTokens?

end Tree

end ContractBuild.Json
