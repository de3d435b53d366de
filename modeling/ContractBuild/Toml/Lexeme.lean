import ContractBuild.Text.Hex

/-! The lexemes of a TOML document. Blanks and comments are left out, but each lexeme remembers the
gap before it, since a few of them have to stand together. -/
namespace ContractBuild.Toml

/-- What lies between a lexeme and the one before it on its line. -/
inductive Gap where
  | none
  /-- One space. -/
  | space
  | wide
  deriving DecidableEq

/-- A piece of a document. -/
inductive Token where
  | newline
  /-- A run of letters, digits, underscores and dashes. -/
  | word (text : List Char)
  /-- One of the marks `[ ] { } , = . + :`. -/
  | mark (c : Char)
  /-- The text of a string, and whether it is one that may span lines. -/
  | string (text : List Char) (long : Bool)
  deriving DecidableEq

/-- A token and the gap before it. -/
structure Lexeme where
  gap : Gap
  token : Token
  deriving DecidableEq

namespace Lexeme

/-- Whether a character separates lexemes on a line. -/
def isGap (c : Char) : Bool := c == ' ' || c == '\t'

/-- Whether a character may stand in a comment or string: any but control characters other than the
tab. -/
def isPlain (c : Char) : Bool := c == '\t' || (0x20 ≤ c.toNat && c.toNat != 0x7F)

/-- Whether a character belongs to a word. -/
def isWordChar (c : Char) : Bool := c.isAlphanum || c == '_' || c == '-'

/-- Whether a text starts with a line break or is at its end. -/
def atLineEnd : List Char → Bool
  | [] => true
  | '\n' :: _ => true
  | '\r' :: '\n' :: _ => true
  | _ => false

/-- Whether only blanks come before the next line break, which is there. -/
def breaksLine (text : List Char) : Bool :=
  let rest := text.dropWhile isGap
  rest ≠ [] && atLineEnd rest

/-- The character that a short escape stands for. -/
def escaped? (c : Char) : Option Char :=
  match c with
  | 'b' => some '\x08'
  | 't' => some '\t'
  | 'n' => some '\n'
  | 'f' => some '\x0c'
  | 'r' => some '\r'
  | '"' => some '"'
  | '\\' => some '\\'
  | _ => none

/-- The character whose number hexadecimal digits write. -/
def charOfHex? (digits : List Char) : Option Char :=
  match digits.foldlM (fun n c => (Text.hexValue? c).map fun value => 16 * n + value) 0 with
  | some n => if n.isValidChar then some (Char.ofNat n) else none
  | none => none

/-- A text read inside a string, with a character before it. -/
def before (c : Char) : List Char × List Char → List Char × List Char
  | (text, rest) => (c :: text, rest)

/-- The text of a string after its opening quote, and what follows the closing quote. -/
def readBasic : List Char → Option (List Char × List Char)
  | '"' :: rest => some ([], rest)
  | '\\' :: 'u' :: a :: b :: c :: d :: rest =>
    match charOfHex? [a, b, c, d] with
    | some x => (readBasic rest).map (before x)
    | none => none
  | '\\' :: 'U' :: a :: b :: c :: d :: e :: f :: g :: h :: rest =>
    match charOfHex? [a, b, c, d, e, f, g, h] with
    | some x => (readBasic rest).map (before x)
    | none => none
  | '\\' :: c :: rest =>
    match escaped? c with
    | some x => (readBasic rest).map (before x)
    | none => none
  | c :: rest => if isPlain c ∧ c ≠ '\\' then (readBasic rest).map (before c) else none
  | [] => none

/-- The text of a string without escapes, and what follows its closing quote. -/
def readLiteral : List Char → Option (List Char × List Char)
  | '\'' :: rest => some ([], rest)
  | c :: rest => if isPlain c then (readLiteral rest).map (before c) else none
  | [] => none

/-- The quotes that belong to a long string at its end, up to two, and what follows them. -/
def lastQuotes (quote : Char) : List Char → List Char × List Char
  | a :: b :: rest =>
    if a = quote then if b = quote then ([a, b], rest) else ([a], b :: rest)
    else ([], a :: b :: rest)
  | [a] => if a = quote then ([a], []) else ([], [a])
  | [] => ([], [])

/-- The text of a long string, and what follows its closing quotes. A backslash at the end of a line
is dropped with everything blank after it: with `skipping` set, blanks and line breaks are passed
over. -/
def readLongBasic (skipping : Bool) : List Char → Option (List Char × List Char)
  | '"' :: '"' :: '"' :: rest => some (lastQuotes '"' rest)
  | '\\' :: 'u' :: a :: b :: c :: d :: rest =>
    match charOfHex? [a, b, c, d] with
    | some x => (readLongBasic false rest).map (before x)
    | none => none
  | '\\' :: 'U' :: a :: b :: c :: d :: e :: f :: g :: h :: rest =>
    match charOfHex? [a, b, c, d, e, f, g, h] with
    | some x => (readLongBasic false rest).map (before x)
    | none => none
  | '\\' :: c :: rest =>
    match escaped? c with
    | some x => (readLongBasic false rest).map (before x)
    | none => if breaksLine (c :: rest) then readLongBasic true (c :: rest) else none
  | '\r' :: '\n' :: rest =>
    if skipping then readLongBasic true rest else (readLongBasic false rest).map (before '\n')
  | c :: rest =>
    if skipping ∧ (isGap c ∨ c = '\n') then readLongBasic true rest
    else if c = '\n' ∨ (isPlain c ∧ c ≠ '\\') then (readLongBasic false rest).map (before c)
    else none
  | [] => none

/-- The text of a long string without escapes, and what follows its closing quotes. -/
def readLongLiteral : List Char → Option (List Char × List Char)
  | '\'' :: '\'' :: '\'' :: rest => some (lastQuotes '\'' rest)
  | '\r' :: '\n' :: rest => (readLongLiteral rest).map (before '\n')
  | c :: rest => if c = '\n' ∨ isPlain c then (readLongLiteral rest).map (before c) else none
  | [] => none

/-- A text without the line break at its start. -/
def afterBreak : List Char → List Char
  | '\n' :: rest => rest
  | '\r' :: '\n' :: rest => rest
  | text => text

/-- The marks. -/
def marks : List Char := ['[', ']', '{', '}', ',', '=', '.', '+', ':']

/-- The token that starts with a character, and what follows it. -/
def read? (c : Char) (rest : List Char) : Option (Token × List Char) :=
  match c, rest with
  | '\n', rest => some (.newline, rest)
  | '\r', '\n' :: rest => some (.newline, rest)
  | '"', '"' :: '"' :: rest =>
    (readLongBasic false (afterBreak rest)).map fun (text, beyond) => (.string text true, beyond)
  | '"', rest => (readBasic rest).map fun (text, beyond) => (.string text false, beyond)
  | '\'', '\'' :: '\'' :: rest =>
    (readLongLiteral (afterBreak rest)).map fun (text, beyond) => (.string text true, beyond)
  | '\'', rest => (readLiteral rest).map fun (text, beyond) => (.string text false, beyond)
  | c, rest =>
    if marks.contains c then some (.mark c, rest)
    else if isWordChar c then
      some (.word (c :: rest.takeWhile isWordChar), rest.dropWhile isWordChar)
    else none

theorem before_snd (c : Char) (read : List Char × List Char) : (before c read).2 = read.2 := rfl

theorem readBasic_length {text : List Char} {read : List Char × List Char}
    (found : readBasic text = some read) : read.2.length < text.length := by
  fun_induction readBasic text generalizing read <;>
    simp_all only [Option.map_eq_some_iff, Option.some.injEq, List.length_cons, reduceCtorEq] <;>
    grind [before_snd]

theorem readLiteral_length {text : List Char} {read : List Char × List Char}
    (found : readLiteral text = some read) : read.2.length < text.length := by
  fun_induction readLiteral text generalizing read <;>
    simp_all only [Option.map_eq_some_iff, Option.some.injEq, List.length_cons, reduceCtorEq] <;>
    grind [before_snd]

theorem lastQuotes_length (quote : Char) (text : List Char) :
    (lastQuotes quote text).2.length ≤ text.length := by
  fun_cases lastQuotes quote text <;> grind

theorem readLongBasic_length {skipping : Bool} {text : List Char} {read : List Char × List Char}
    (found : readLongBasic skipping text = some read) : read.2.length < text.length := by
  fun_induction readLongBasic skipping text generalizing read <;>
    simp_all only [Option.map_eq_some_iff, Option.some.injEq, List.length_cons, reduceCtorEq] <;>
    grind [before_snd, lastQuotes_length]

theorem readLongLiteral_length {text : List Char} {read : List Char × List Char}
    (found : readLongLiteral text = some read) : read.2.length < text.length := by
  fun_induction readLongLiteral text generalizing read <;>
    simp_all only [Option.map_eq_some_iff, Option.some.injEq, List.length_cons, reduceCtorEq] <;>
    grind [before_snd, lastQuotes_length]

theorem afterBreak_length (text : List Char) : (afterBreak text).length ≤ text.length := by
  fun_cases afterBreak text <;> grind

theorem dropWhile_length (p : Char → Bool) (text : List Char) :
    (text.dropWhile p).length ≤ text.length := (List.dropWhile_sublist p).length_le

theorem read?_length {c : Char} {text rest : List Char} {token : Token}
    (read : read? c text = some (token, rest)) : rest.length ≤ text.length := by
  fun_cases read? c text <;>
    simp_all only [read?, Option.map_eq_some_iff, Option.some.injEq, Prod.mk.injEq,
      List.length_cons, reduceCtorEq] <;>
    grind [→ readBasic_length, → readLiteral_length, → readLongBasic_length,
      → readLongLiteral_length, afterBreak_length, dropWhile_length]

/-- The gap after one more blank. -/
def widen (gap : Gap) (c : Char) : Gap := if gap = .none ∧ c = ' ' then .space else .wide

/-- The lexemes of a text, `gap` being what lies before it. A comment ends with its line. -/
def scan (gap : Gap) (text : List Char) : Option (List Lexeme) :=
  match text with
  | [] => some []
  | c :: rest =>
    if isGap c then scan (widen gap c) rest
    else if c = '#' then
      if atLineEnd (rest.dropWhile isPlain) then scan .none (rest.dropWhile isPlain) else none
    else
      match _found : read? c rest with
      | none => none
      | some (token, beyond) => (scan .none beyond).map (⟨gap, token⟩ :: ·)
termination_by text.length
decreasing_by
  · simp
  · have := dropWhile_length isPlain rest
    simp only [List.length_cons]
    omega
  · have := read?_length _found
    simp only [List.length_cons]
    omega

end Lexeme

end ContractBuild.Toml
