import ContractBuild.Text.Basic
import ContractBuild.Text.Hex
import ContractBuild.Text.Decimal

/-! TOML values, and the scalars among them that are written without quotes: truth values, numbers,
and dates and times. What a float or a time is has no use here; only whether it is well-formed
matters. -/
namespace ContractBuild.Toml

/-- A value. -/
inductive Value where
  | string (text : String)
  | integer (n : Int)
  | float
  | bool (value : Bool)
  /-- A date, a time, or both. -/
  | time
  | array (items : List Value)
  | table (entries : List (String × Value))
  deriving Inhabited

namespace Scalar

/-- The text after a sign, and whether the sign is a minus. -/
def splitSign : List Char → Bool × List Char
  | '-' :: rest => (true, rest)
  | '+' :: rest => (false, rest)
  | text => (false, text)

/-- The digits of a number, which may have single underscores between them. -/
def digits? (isDigit : Char → Bool) (text : List Char) : Option (List Char) :=
  let groups := Text.split (· == '_') text
  if groups.all fun group => group ≠ [] ∧ group.all isDigit then some groups.flatten else none

/-- Whether a character is a digit in a base up to sixteen. -/
def isDigitOf (base : Nat) (c : Char) : Bool := (Text.hexValue? c).any (· < base)

/-- The number that digits in a base write. -/
def ofDigits (base : Nat) (digits : List Char) : Nat :=
  digits.foldl (fun n c => base * n + (Text.hexValue? c).getD 0) 0

/-- The digits of a whole number in decimal, which starts with a zero only if it is zero. -/
def whole? (text : List Char) : Option (List Char) :=
  (digits? Text.isDigit text).filter fun digits => digits.length = 1 ∨ digits.head? ≠ some '0'

/-- The base that the start of a number names, and its digits. -/
def based? : List Char → Option (Nat × List Char)
  | '0' :: 'x' :: digits => some (16, digits)
  | '0' :: 'o' :: digits => some (8, digits)
  | '0' :: 'b' :: digits => some (2, digits)
  | _ => none

/-- An integer of 64 bits. Only a decimal one has a sign. -/
def integer? (text : List Char) : Option Int :=
  let value : Option Int :=
    match based? text with
    | some (base, digits) =>
      (digits? (isDigitOf base) digits).map fun digits => ofDigits base digits
    | none =>
      let (negative, rest) := splitSign text
      (whole? rest).map fun digits =>
        if negative then -(Text.ofDecimal digits : Int) else Text.ofDecimal digits
  value.filter fun n => -(Nat.pow 2 63) ≤ n ∧ n < Nat.pow 2 63

/-- The least number that is too large for a float of 64 bits. -/
def floatBound : Nat := Nat.pow 2 1024 - Nat.pow 2 970

/-- Whether `n` times ten to a power is below the bound of floats. -/
def isFinite (n : Nat) (power : Int) : Bool :=
  let size : Int := (Text.decimal n).length + power
  if n = 0 ∨ size < 300 then true
  else if 320 < size then false
  else if 0 ≤ power then n * Nat.pow 10 power.toNat < floatBound
  else n < floatBound * Nat.pow 10 (-power).toNat

/-- The exponent of a float: nothing, or a signed whole number after an `e`. -/
def exponent? : List Char → Option Int
  | [] => some 0
  | _ :: text =>
    let (negative, rest) := splitSign text
    (digits? Text.isDigit rest).map fun digits =>
      if negative then -(Text.ofDecimal digits : Int) else Text.ofDecimal digits

/-- Whether a text is a float: a whole number with a fraction, an exponent or both, or one of the
names of what is no number. A float that is too large is none, unless it is below zero. -/
def isFloat (text : List Char) : Bool :=
  let (negative, rest) := splitSign text
  if rest = ['i', 'n', 'f'] ∨ rest = ['n', 'a', 'n'] then true
  else
    let isExponentMark (c : Char) : Bool := c == 'e' || c == 'E'
    let mantissa := rest.takeWhile fun c => !isExponentMark c
    let tail := rest.dropWhile fun c => !isExponentMark c
    let (before, after) := (Text.cut? ['.'] mantissa).getD (mantissa, ['0'])
    if mantissa = rest ∧ before = mantissa then false
    else
      match whole? before, digits? Text.isDigit after, exponent? tail with
      | some whole, some fraction, some exponent =>
        negative || isFinite (Text.ofDecimal (whole ++ fraction)) (exponent - fraction.length)
      | _, _, _ => false

/-- The number in exactly `width` digits. -/
def fixed? (width : Nat) (text : List Char) : Option Nat :=
  if text.length = width ∧ text.all Text.isDigit then some (Text.ofDecimal text) else none

/-- Whether a year has a day more. -/
def isLeap (year : Nat) : Bool := year % 4 = 0 && (year % 100 ≠ 0 || year % 400 = 0)

/-- The number of days in a month. -/
def daysIn (year month : Nat) : Nat :=
  if month = 2 then if isLeap year then 29 else 28
  else if [4, 6, 9, 11].contains month then 30
  else 31

/-- Whether a text is a date of the calendar. -/
def isDate (text : List Char) : Bool :=
  match (Text.split (· == '-') text) with
  | [year, month, day] =>
    match fixed? 4 year, fixed? 2 month, fixed? 2 day with
    | some year, some month, some day =>
      1 ≤ month && month ≤ 12 && 1 ≤ day && day ≤ daysIn year month
    | _, _, _ => false
  | _ => false

/-- Whether a text is two digits that write a number up to `last`. -/
def isTwoDigits (last : Nat) (text : List Char) : Bool := (fixed? 2 text).any (· ≤ last)

/-- Whether a text is a time of day. The second may be a leap second and may have a fraction. -/
def isTimeOfDay (text : List Char) : Bool :=
  match Text.split (· == ':') text with
  | [hour, minute, second] =>
    let (whole, fraction) := (Text.cut? ['.'] second).getD (second, ['0'])
    isTwoDigits 23 hour && isTwoDigits 59 minute && isTwoDigits 60 whole &&
      fraction ≠ [] && fraction.all Text.isDigit
  | _ => false

/-- Whether a text is a distance from universal time. -/
def isOffset : List Char → Bool
  | [c] => c == 'Z' || c == 'z'
  | sign :: text =>
    (sign == '+' || sign == '-') &&
      match Text.split (· == ':') text with
      | [hour, minute] => isTwoDigits 23 hour && isTwoDigits 59 minute
      | _ => false
  | [] => false

/-- Whether a text is a time of day, with or without a distance from universal time. -/
def isZonedTime (text : List Char) : Bool :=
  let inTime (c : Char) : Bool := Text.isDigit c || c == ':' || c == '.'
  let offset := text.dropWhile inTime
  isTimeOfDay (text.takeWhile inTime) && (offset = [] || isOffset offset)

/-- Whether a text is a date, a time of day, or a date and a time with a `T` or a space between. -/
def isTime (text : List Char) : Bool :=
  isTimeOfDay text || isDate text ||
    isDate (text.take 10) &&
      match text.drop 10 with
      | mark :: time => (mark == 'T' || mark == 't' || mark == ' ') && isZonedTime time
      | [] => false

/-- The value that a text without quotes writes. -/
def value? (text : List Char) : Option Value :=
  if text = ['t', 'r', 'u', 'e'] then some (.bool true)
  else if text = ['f', 'a', 'l', 's', 'e'] then some (.bool false)
  else
    match integer? text with
    | some n => some (.integer n)
    | none => if isTime text then some .time else if isFloat text then some .float else none

end Scalar

end ContractBuild.Toml
