import ContractBuild.Json.Value

/-! JSON values as text, on one line or with one item to a line. -/
namespace ContractBuild.Json

/-- A character as it is spelled in a string. Only quotes, backslashes and control characters are
escaped. -/
def escape (c : Char) : List Char :=
  match c with
  | '"' => ['\\', '"']
  | '\\' => ['\\', '\\']
  | '\x08' => ['\\', 'b']
  | '\t' => ['\\', 't']
  | '\n' => ['\\', 'n']
  | '\x0c' => ['\\', 'f']
  | '\r' => ['\\', 'r']
  | c =>
    if c.toNat < 0x20 then
      ['\\', 'u', '0', '0', Text.hexDigit (c.toNat / 16), Text.hexDigit (c.toNat % 16)]
    else [c]

/-- A text between quotes. -/
def quoted (text : String) : List Char := '"' :: text.toList.flatMap escape ++ ['"']

/-- A number as it is shown. -/
def Number.text : Number → List Char
  | natural n => Text.decimal n
  | negative n => '-' :: Text.decimal n
  | float x => x.text

namespace Value

mutual

/-- A value on one line, without spaces. -/
def compact : Value → List Char
  | null => ['n', 'u', 'l', 'l']
  | bool true => ['t', 'r', 'u', 'e']
  | bool false => ['f', 'a', 'l', 's', 'e']
  | number n => n.text
  | string text => quoted text
  | array items => '[' :: compactItems items ++ [']']
  | object members => '{' :: compactMembers members ++ ['}']

/-- Items with a comma between each two. -/
def compactItems : List Value → List Char
  | [] => []
  | [item] => compact item
  | item :: next :: items => compact item ++ ',' :: compactItems (next :: items)

/-- Members with a comma between each two. -/
def compactMembers : List (String × Value) → List Char
  | [] => []
  | [(key, value)] => quoted key ++ ':' :: compact value
  | (key, value) :: next :: members =>
    quoted key ++ ':' :: compact value ++ ',' :: compactMembers (next :: members)

end

/-- The start of a line at a depth of nesting: two spaces for each level. -/
def newline (depth : Nat) : List Char := '\n' :: List.replicate (2 * depth) ' '

mutual

/-- A value with one item to a line, at a depth of nesting. -/
def pretty (depth : Nat) : Value → List Char
  | array [] => ['[', ']']
  | object [] => ['{', '}']
  | array (item :: items) =>
    '[' :: newline (depth + 1) ++ prettyItems (depth + 1) (item :: items) ++ newline depth ++ [']']
  | object (member :: members) =>
    '{' :: newline (depth + 1) ++ prettyMembers (depth + 1) (member :: members) ++ newline depth ++
      ['}']
  | value => compact value

/-- Items, each after the first on a line of its own. -/
def prettyItems (depth : Nat) : List Value → List Char
  | [] => []
  | [item] => pretty depth item
  | item :: next :: items =>
    pretty depth item ++ ',' :: newline depth ++ prettyItems depth (next :: items)

/-- Members, each after the first on a line of its own. -/
def prettyMembers (depth : Nat) : List (String × Value) → List Char
  | [] => []
  | [(key, value)] => quoted key ++ ':' :: ' ' :: pretty depth value
  | (key, value) :: next :: members =>
    quoted key ++ ':' :: ' ' :: pretty depth value ++ ',' :: newline depth ++
      prettyMembers depth (next :: members)

end

end Value

end ContractBuild.Json
