import ContractBuild.Text.Hex
import ContractBuild.Text.Decimal

/-! The tokens of JSON text. A token keeps its spelling, so that a part of a document which nobody
looks at is checked for its form and for nothing else. -/
namespace ContractBuild.Json

/-- The spelling of a number. -/
structure Numeral where
  negative : Bool
  /-- The digits before the point. -/
  whole : List Char
  /-- The digits after the point; without any there is no point. -/
  fraction : List Char
  /-- Whether the exponent is negative, and its digits. -/
  exponent : Option (Bool × List Char)
  deriving DecidableEq

/-- A token. -/
inductive Token where
  /-- One of the marks `{ } [ ] , :`. -/
  | mark (c : Char)
  | null
  | bool (value : Bool)
  | number (numeral : Numeral)
  /-- A string as it is spelled between its quotes. -/
  | string (raw : List Char)
  deriving DecidableEq

namespace Token

/-- Whether a character may stand between tokens. -/
def isSpace (c : Char) : Bool := c == ' ' || c == '\t' || c == '\n' || c == '\r'

/-- Whether a backslash and a character stand for one character. -/
def isShortEscape (c : Char) : Bool := ['"', '\\', '/', 'b', 'f', 'n', 'r', 't'].contains c

/-- The spelling of a string up to its closing quote, and what follows the quote. -/
def readString : List Char → Option (List Char × List Char)
  | [] => none
  | '"' :: rest => some ([], rest)
  | '\\' :: 'u' :: a :: b :: c :: d :: rest =>
    if [a, b, c, d].all fun digit => (Text.hexValue? digit).isSome then
      (readString rest).map fun (raw, beyond) => ('\\' :: 'u' :: a :: b :: c :: d :: raw, beyond)
    else none
  | '\\' :: c :: rest =>
    if isShortEscape c then (readString rest).map fun (raw, beyond) => ('\\' :: c :: raw, beyond)
    else none
  | c :: rest =>
    if c = '\\' ∨ c.toNat < 0x20 then none
    else (readString rest).map fun (raw, beyond) => (c :: raw, beyond)

/-- The digits at the start of a text. -/
def digits (text : List Char) : List Char := text.takeWhile Text.isDigit

/-- What follows the digits at the start of a text. -/
def afterDigits (text : List Char) : List Char := text.dropWhile Text.isDigit

/-- The digits after a point, if a text starts with one, and the rest. -/
def readFraction : List Char → Option (List Char × List Char)
  | '.' :: rest => if digits rest = [] then none else some (digits rest, afterDigits rest)
  | text => some ([], text)

/-- What follows a sign, if a text starts with one. -/
def afterSign : List Char → List Char
  | '-' :: rest => rest
  | '+' :: rest => rest
  | text => text

/-- The sign and the digits of an exponent, if a text starts with one, and the rest. -/
def readExponent : List Char → Option (Option (Bool × List Char) × List Char)
  | [] => some (none, [])
  | c :: rest =>
    if c = 'e' ∨ c = 'E' then
      if digits (afterSign rest) = [] then none
      else
        some (some (rest.head? == some '-', digits (afterSign rest)),
          afterDigits (afterSign rest))
    else some (none, c :: rest)

/-- The digits of a whole number, and the rest. No other number than zero starts with a zero. -/
def readWhole : List Char → Option (List Char × List Char)
  | '0' :: rest => some (['0'], rest)
  | text => if digits text = [] then none else some (digits text, afterDigits text)

/-- A number without its sign at the start of a text, and the rest. -/
def readUnsigned (negative : Bool) (text : List Char) : Option (Numeral × List Char) := do
  let (whole, rest) ← readWhole text
  let (fraction, rest) ← readFraction rest
  let (exponent, rest) ← readExponent rest
  return (⟨negative, whole, fraction, exponent⟩, rest)

/-- A number at the start of a text, and the rest. -/
def readNumber : List Char → Option (Numeral × List Char)
  | '-' :: rest => readUnsigned true rest
  | text => readUnsigned false text

/-- The token that starts with a character, and what follows it. -/
def read? (c : Char) (rest : List Char) : Option (Token × List Char) :=
  if ['{', '}', '[', ']', ',', ':'].contains c then some (mark c, rest)
  else if c = '"' then (readString rest).map fun (raw, beyond) => (string raw, beyond)
  else
    match c, rest with
    | 'n', 'u' :: 'l' :: 'l' :: beyond => some (null, beyond)
    | 't', 'r' :: 'u' :: 'e' :: beyond => some (bool true, beyond)
    | 'f', 'a' :: 'l' :: 's' :: 'e' :: beyond => some (bool false, beyond)
    | c, rest => (readNumber (c :: rest)).map fun (numeral, beyond) => (number numeral, beyond)

theorem readString_length {text raw rest : List Char} (read : readString text = some (raw, rest)) :
    rest.length < text.length := by
  fun_induction readString text generalizing raw with
  | case1 => simp at read
  | case2 => simp_all
  | case3 a b c d tail _ ih =>
    obtain ⟨⟨inner, beyond⟩, found, same⟩ := Option.map_eq_some_iff.mp read
    simp only [Prod.mk.injEq] at same
    have := ih (same.2 ▸ found)
    simp only [List.length_cons]
    omega
  | case4 => simp at read
  | case5 c tail _ _ ih =>
    obtain ⟨⟨inner, beyond⟩, found, same⟩ := Option.map_eq_some_iff.mp read
    simp only [Prod.mk.injEq] at same
    have := ih (same.2 ▸ found)
    simp only [List.length_cons]
    omega
  | case6 => simp at read
  | case7 => simp at read
  | case8 c tail _ _ _ _ ih =>
    obtain ⟨⟨inner, beyond⟩, found, same⟩ := Option.map_eq_some_iff.mp read
    simp only [Prod.mk.injEq] at same
    have := ih (same.2 ▸ found)
    simp only [List.length_cons]
    omega

theorem digits_append_afterDigits (text : List Char) : digits text ++ afterDigits text = text :=
  List.takeWhile_append_dropWhile

theorem afterDigits_length (text : List Char) : (afterDigits text).length ≤ text.length :=
  (List.dropWhile_sublist _).length_le

theorem afterSign_length (text : List Char) : (afterSign text).length ≤ text.length := by
  unfold afterSign
  split <;> simp

theorem readFraction_length {text digits rest : List Char}
    (read : readFraction text = some (digits, rest)) : rest.length ≤ text.length := by
  unfold readFraction at read
  split at read
  · split at read
    · simp at read
    · simp only [Option.some.injEq, Prod.mk.injEq] at read
      rw [← read.2]
      exact Nat.le_succ_of_le (afterDigits_length _)
  · simp_all

theorem readExponent_length {text rest : List Char} {exponent : Option (Bool × List Char)}
    (read : readExponent text = some (exponent, rest)) : rest.length ≤ text.length := by
  unfold readExponent at read
  split at read
  · simp_all
  · split at read
    · split at read
      · simp at read
      · simp only [Option.some.injEq, Prod.mk.injEq] at read
        rw [← read.2]
        exact Nat.le_succ_of_le (Nat.le_trans (afterDigits_length _) (afterSign_length _))
    · simp_all

theorem readWhole_length {text whole rest : List Char}
    (read : readWhole text = some (whole, rest)) : rest.length < text.length := by
  unfold readWhole at read
  split at read
  · simp_all
  · split at read
    · simp at read
    · rename_i some
      simp only [Option.some.injEq, Prod.mk.injEq] at read
      have whole := congrArg List.length (digits_append_afterDigits text)
      have := List.length_pos_iff.mpr some
      rw [List.length_append, read.2] at whole
      omega

theorem readUnsigned_length {negative : Bool} {text rest : List Char} {numeral : Numeral}
    (read : readUnsigned negative text = some (numeral, rest)) : rest.length < text.length := by
  unfold readUnsigned at read
  simp only [bind, Option.bind_eq_some_iff, pure, Option.some.injEq, Prod.mk.injEq,
    Prod.exists] at read
  obtain ⟨whole, afterWhole, first, fraction, afterFraction, second, exponent, beyond, third, -,
    rfl⟩ := read
  have := readWhole_length first
  have := readFraction_length second
  have := readExponent_length third
  omega

theorem readNumber_length {text rest : List Char} {numeral : Numeral}
    (read : readNumber text = some (numeral, rest)) : rest.length < text.length := by
  unfold readNumber at read
  split at read
  · exact Nat.lt_succ_of_lt (readUnsigned_length read)
  · exact readUnsigned_length read

theorem read?_length {c : Char} {text rest : List Char} {token : Token}
    (read : read? c text = some (token, rest)) : rest.length ≤ text.length := by
  unfold read? at read
  split at read
  · simp_all
  · split at read
    · obtain ⟨⟨raw, beyond⟩, found, same⟩ := Option.map_eq_some_iff.mp read
      simp only [Prod.mk.injEq] at same
      have := readString_length found
      rw [← same.2]
      omega
    · split at read
      · simp_all
        omega
      · simp_all
        omega
      · simp_all
        omega
      · obtain ⟨⟨numeral, beyond⟩, found, same⟩ := Option.map_eq_some_iff.mp read
        simp only [Prod.mk.injEq] at same
        have := readNumber_length found
        rw [← same.2]
        simp only [List.length_cons] at this
        omega

/-- The tokens of a text, if it consists of tokens and spaces. -/
def scan (text : List Char) : Option (List Token) :=
  match text with
  | [] => some []
  | c :: rest =>
    if isSpace c then scan rest
    else
      match _found : read? c rest with
      | none => none
      | some (token, beyond) => (scan beyond).map (token :: ·)
termination_by text.length
decreasing_by
  · simp
  · have := read?_length _found
    simp only [List.length_cons]
    omega

end Token

end ContractBuild.Json
