/-! Natural numbers in decimal digits. -/
namespace ContractBuild.Text

/-- Whether a character is one of the ten ASCII digits. -/
def isDigit (c : Char) : Bool := '0' ≤ c && c ≤ '9'

/-- The value of a digit. -/
def digitValue (c : Char) : Nat := c.toNat - 48

/-- The number that digits write. -/
def ofDecimal (digits : List Char) : Nat := digits.foldl (fun n c => 10 * n + digitValue c) 0

/-- The digits of a number, without leading zeros. -/
def decimal (n : Nat) : List Char :=
  let digit := Char.ofNat (48 + n % 10)
  if n < 10 then [digit] else decimal (n / 10) ++ [digit]

/-- The number that a text of digits writes, if it is below `bound`. A plus sign may come first. -/
def decimalBelow? (bound : Nat) (text : List Char) : Option Nat :=
  let digits := match text with
    | '+' :: rest => rest
    | text => text
  if digits ≠ [] ∧ digits.all isDigit ∧ ofDecimal digits < bound then some (ofDecimal digits)
  else none

end ContractBuild.Text
