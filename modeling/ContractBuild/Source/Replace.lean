import ContractBuild.Source.Import

/-! Putting new text in the place of spans of a source text. -/
namespace ContractBuild.Source

/-- The longest start of a text whose UTF-8 form has at most `count` bytes. -/
def takeBytes (count : Nat) : List Char → List Char
  | [] => []
  | c :: text => if c.utf8Size ≤ count then c :: takeBytes (count - c.utf8Size) text else []

/-- What follows the longest start of a text whose UTF-8 form has at most `count` bytes. -/
def dropBytes (count : Nat) : List Char → List Char
  | [] => []
  | c :: text => if c.utf8Size ≤ count then dropBytes (count - c.utf8Size) text else c :: text

/-- A text with spans replaced, given what is left of it from an offset on. The spans are in
ascending order and do not overlap. -/
def replaceSpansFrom (offset : Nat) (text : List Char) : List (Span × List Char) → List Char
  | [] => text
  | (span, new) :: rest =>
    let tail := dropBytes (span.start - offset) text
    takeBytes (span.start - offset) text ++ new ++
      replaceSpansFrom span.stop (dropBytes (span.stop - span.start) tail) rest

/-- A text with spans replaced. -/
def replaceSpans (text : List Char) (replacements : List (Span × List Char)) : List Char :=
  replaceSpansFrom 0 text replacements

end ContractBuild.Source
