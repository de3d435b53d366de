import ContractBuild.Text.Basic

/-! The coarse tokens of a source text: comments, string literals, and single characters of code.
They are all that has to be told apart to find directives that are not commented out. -/
namespace ContractBuild.Source

/-- A token; its characters are exactly those of the text. -/
inductive Lexeme where
  /-- A character outside comments and literals. -/
  | code (c : Char)
  /-- A comment from two slashes up to the end of the line. -/
  | lineComment (body : List Char)
  /-- A comment opened by a slash and a star; `body` goes up to and includes the star and slash that
  close it, or to the end of the text. -/
  | blockComment (body : List Char)
  /-- A string literal. It is closed by the quote that opened it, or cut off by the end of the line,
  or by the end of the text. -/
  | literal (quote : Char) (inside : List Char) (close : Option Char)
  deriving DecidableEq

namespace Lexeme

/-- The characters of a token. -/
def text : Lexeme → List Char
  | code c => [c]
  | lineComment body => '/' :: '/' :: body
  | blockComment body => '/' :: '*' :: body
  | literal quote inside close => quote :: inside ++ close.toList

/-- Splits after the first star and slash. -/
def blockBody : List Char → List Char × List Char
  | [] => ([], [])
  | '*' :: '/' :: rest => (['*', '/'], rest)
  | c :: rest =>
    let (inside, beyond) := blockBody rest
    (c :: inside, beyond)

/-- The inside of a literal opened by `quote`, the character that closes it or cuts it off, and what
follows. A backslash takes the next character into the literal, whatever it is. -/
def literalBody (quote : Char) : List Char → List Char × Option Char × List Char
  | [] => ([], none, [])
  | c :: rest =>
    if c = quote ∨ c = '\n' then ([], some c, rest)
    else if c = '\\' then
      match rest with
      | [] => ([c], none, [])
      | escaped :: rest =>
        let (inside, close, beyond) := literalBody quote rest
        (c :: escaped :: inside, close, beyond)
    else
      let (inside, close, beyond) := literalBody quote rest
      (c :: inside, close, beyond)

/-- The token that a text starts with, and the text after it. -/
def next (c : Char) (rest : List Char) : Lexeme × List Char :=
  match c, rest with
  | '/', '/' :: body => (lineComment (body.takeWhile (· ≠ '\n')), body.dropWhile (· ≠ '\n'))
  | '/', '*' :: body =>
    let (inside, beyond) := blockBody body
    (blockComment inside, beyond)
  | c, rest =>
    if c = '"' ∨ c = '\'' then
      let (inside, close, beyond) := literalBody c rest
      (literal c inside close, beyond)
    else (code c, rest)

theorem blockBody_append (text : List Char) : (blockBody text).1 ++ (blockBody text).2 = text := by
  fun_induction blockBody text <;> simp_all

theorem literalBody_append (quote : Char) (text : List Char) :
    (literalBody quote text).1 ++ (literalBody quote text).2.1.toList ++
      (literalBody quote text).2.2 = text := by
  fun_induction literalBody quote text <;> simp_all

/-- A token takes its characters off the text and no others. -/
theorem next_append (c : Char) (rest : List Char) :
    (next c rest).1.text ++ (next c rest).2 = c :: rest := by
  unfold next
  split
  · simp [text, List.takeWhile_append_dropWhile]
  · simp [text, blockBody_append]
  · split
    · have whole := literalBody_append c rest
      simpa [text] using whole
    · simp [text]

theorem text_ne_nil (lexeme : Lexeme) : lexeme.text ≠ [] := by
  cases lexeme <;> simp [text]

theorem next_shorter (c : Char) (rest : List Char) : (next c rest).2.length ≤ rest.length := by
  have whole := congrArg List.length (next_append c rest)
  have some := List.length_pos_iff.mpr (text_ne_nil (next c rest).1)
  simp only [List.length_append, List.length_cons] at whole
  omega

/-- The tokens of a text, in order. -/
def scan (text : List Char) : List Lexeme :=
  match text with
  | [] => []
  | c :: rest =>
    let found := next c rest
    found.1 :: scan found.2
termination_by text.length
decreasing_by
  have := next_shorter c rest
  simp only [List.length_cons]
  omega

end Lexeme

end ContractBuild.Source
