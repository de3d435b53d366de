import ContractBuild.Json.Binary64
import ContractBuild.Json.Tree
import ContractBuild.KeyMap

/-! JSON values: what a document means when it is looked at. Strings are sequences of characters, so
half a surrogate pair is no string; numbers have to be in range; and brackets nest to a limit. -/
namespace ContractBuild.Json

/-- A number: an integer of 64 bits if it is written as one, and otherwise a floating-point
number. -/
inductive Number where
  | natural (n : Nat)
  /-- The number below zero of this size. -/
  | negative (n : Nat)
  | float (x : Binary64)
  deriving DecidableEq, Inhabited

/-- A value. The members of an object are listed in the order in which they are shown. -/
inductive Value where
  | null
  | bool (value : Bool)
  | number (number : Number)
  | string (text : String)
  | array (items : List Value)
  | object (members : List (String × Value))
  deriving Inhabited

/-- The character that a short escape stands for. -/
def shortEscape (c : Char) : Char :=
  match c with
  | 'b' => '\x08'
  | 'f' => '\x0c'
  | 'n' => '\n'
  | 'r' => '\r'
  | 't' => '\t'
  | c => c

/-- The number that four hexadecimal digits write. -/
def codeUnit (a b c d : Char) : Nat :=
  [a, b, c, d].foldl (fun n digit => 16 * n + (Text.hexValue? digit).getD 0) 0

/-- Whether a code unit is the first half of a surrogate pair. -/
def isHighHalf (unit : Nat) : Bool := 0xD800 ≤ unit && unit < 0xDC00

/-- Whether a code unit is the second half of a surrogate pair. -/
def isLowHalf (unit : Nat) : Bool := 0xDC00 ≤ unit && unit < 0xE000

/-- The text that a spelling stands for. A half of a surrogate pair has to stand beside its other
half. -/
def unescape : List Char → Option (List Char)
  | [] => some []
  | '\\' :: 'u' :: a :: b :: c :: d :: rest =>
    let unit := codeUnit a b c d
    if isHighHalf unit then
      match rest with
      | '\\' :: 'u' :: e :: f :: g :: h :: rest =>
        let low := codeUnit e f g h
        if isLowHalf low then
          let code := 0x10000 + (unit - 0xD800) * 0x400 + (low - 0xDC00)
          (unescape rest).map (Char.ofNat code :: ·)
        else none
      | _ => none
    else if isLowHalf unit then none
    else (unescape rest).map (Char.ofNat unit :: ·)
  | '\\' :: c :: rest => (unescape rest).map (shortEscape c :: ·)
  | c :: rest => (unescape rest).map (c :: ·)

/-- Takes digits into a number as long as it stays below `2 ^ 64`, and gives the digits left. -/
def gather : (n : Nat) → List Char → Nat × List Char
  | n, [] => (n, [])
  | n, c :: digits =>
    let next := 10 * n + Text.digitValue c
    if next < Nat.pow 2 64 then gather next digits else (n, c :: digits)

/-- The largest exponent that is read as it is written. -/
def maxExponent : Nat := Nat.pow 2 31 - 1

/-- The floating-point number that a spelling stands for: the digits that fit 64 bits, times a power
of ten. A number too large has no value, and one too small is zero. -/
def Numeral.float? (numeral : Numeral) : Option Magnitude :=
  let (whole, wholeLeft) := gather 0 numeral.whole
  let (n, fractionLeft) := gather whole numeral.fraction
  let place : Int :=
    (wholeLeft.length : Int) - (numeral.fraction.length - fractionLeft.length : Nat)
  let exact := (Magnitude.ofFraction? n 1).getD Magnitude.zero
  match numeral.exponent with
  | none => exact.scale? place
  | some (negative, digits) =>
    let exponent := Text.ofDecimal digits
    if exponent ≤ maxExponent then
      exact.scale? (if negative then place - exponent else place + exponent)
    else if negative ∨ n = 0 then some Magnitude.zero
    else none

/-- The number that a spelling stands for. -/
def Numeral.value? (numeral : Numeral) : Option Number :=
  let n := Text.ofDecimal numeral.whole
  if numeral.fraction = [] ∧ numeral.exponent = none ∧ n < Nat.pow 2 64 then
    if ¬ numeral.negative then some (.natural n)
    else if 0 < n ∧ n ≤ Nat.pow 2 63 then some (.negative n)
    else (Magnitude.ofFraction? n 1).map fun size => .float ⟨true, size⟩
  else numeral.float?.map fun size => .float ⟨numeral.negative, size⟩

namespace Value

/-- Brackets that may be open at once. -/
def maxDepth : Nat := 127

mutual

/-- The value of a document, of whose brackets `depth` may be open at once. An object lists its keys
in ascending order, each once and with the last value given for it. -/
def ofTree? (depth : Nat) : Tree → Option Value
  | .null => some .null
  | .bool value => some (.bool value)
  | .number numeral => numeral.value?.map .number
  | .string raw => (unescape raw).map fun text => .string (String.ofList text)
  | .array items =>
    match depth with
    | 0 => none
    | depth + 1 => (ofItems? depth items).map .array
  | .object members =>
    match depth with
    | 0 => none
    | depth + 1 =>
      (ofMembers? depth members).map fun members => .object (KeyMap.ofList members).entries

/-- The values of the items of an array. -/
def ofItems? (depth : Nat) : List Tree → Option (List Value)
  | [] => some []
  | item :: items =>
    match ofTree? depth item, ofItems? depth items with
    | some value, some values => some (value :: values)
    | _, _ => none

/-- The keys and values of the members of an object. -/
def ofMembers? (depth : Nat) : List (List Char × Tree) → Option (List (String × Value))
  | [] => some []
  | (raw, tree) :: members =>
    match unescape raw, ofTree? depth tree, ofMembers? depth members with
    | some key, some value, some values => some ((String.ofList key, value) :: values)
    | _, _, _ => none

end

end Value

end ContractBuild.Json
