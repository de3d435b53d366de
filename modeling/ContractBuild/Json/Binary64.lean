import ContractBuild.Text.Decimal

/-! Finite binary floating-point numbers of 64 bits: rounding of fractions to the nearest one,
products and quotients, reading from decimal digits, and the shortest decimal that reads back. -/
namespace ContractBuild.Json

/-- The size of a number: `significand * 2 ^ exponent`, the significand below `2 ^ 53` and as large
as the least exponent `-1074` lets it be. -/
structure Magnitude where
  significand : Nat
  exponent : Int
  deriving DecidableEq, Inhabited

namespace Magnitude

/-- Zero. -/
def zero : Magnitude := ⟨0, -1074⟩

/-- Numerator and denominator of `n * 2 ^ exponent`. -/
def scaled (n : Nat) (exponent : Int) : Nat × Nat :=
  if 0 ≤ exponent then (n * Nat.pow 2 exponent.toNat, 1) else (n, Nat.pow 2 (-exponent).toNat)

/-- The integer nearest to a fraction; of two equally near the even one. -/
def roundDiv (num den : Nat) : Nat :=
  let quotient := num / den
  let twice := 2 * (num % den)
  if twice < den ∨ (twice = den ∧ quotient % 2 = 0) then quotient else quotient + 1

/-- The number nearest to a fraction, the even one of two equally near, unless that is too large. -/
def ofFraction? (num den : Nat) : Option Magnitude :=
  if num = 0 then some zero
  else
    let place : Int := (Nat.log2 num : Int) - Nat.log2 den - 53
    let parts (exponent : Int) : Nat × Nat :=
      if 0 ≤ exponent then (num, den * Nat.pow 2 exponent.toNat)
      else (num * Nat.pow 2 (-exponent).toNat, den)
    let exponent := if (parts place).1 / (parts place).2 < Nat.pow 2 53 then place else place + 1
    let exponent := max (-1074) exponent
    let significand := roundDiv (parts exponent).1 (parts exponent).2
    let result : Magnitude :=
      if significand = Nat.pow 2 53 then ⟨Nat.pow 2 52, exponent + 1⟩ else ⟨significand, exponent⟩
    if result.exponent > 971 then none else some result

/-- The exact value as a fraction. -/
def fraction (x : Magnitude) : Nat × Nat := scaled x.significand x.exponent

/-- The number nearest to a power of ten that is not too large. -/
def powerOfTen (n : Nat) : Magnitude := (ofFraction? (Nat.pow 10 n) 1).getD zero

/-- The product, rounded. -/
def mul? (x y : Magnitude) : Option Magnitude :=
  ofFraction? (x.fraction.1 * y.fraction.1) (x.fraction.2 * y.fraction.2)

/-- The quotient by a number that is not zero, rounded. -/
def div? (x y : Magnitude) : Option Magnitude :=
  ofFraction? (x.fraction.1 * y.fraction.2) (x.fraction.2 * y.fraction.1)

/-- The largest power of ten that a number can be multiplied by or divided by in one step. -/
def maxPower : Nat := 308

/-- A number divided by the largest power of ten, a number of times. -/
def shrink : (times : Nat) → Magnitude → Magnitude
  | 0, x => x
  | times + 1, x =>
    if x.significand = 0 then x else shrink times ((x.div? (powerOfTen maxPower)).getD zero)

/-- A number times ten to an exponent, in steps that are each rounded. -/
def scale? (x : Magnitude) (exponent : Int) : Option Magnitude :=
  if 0 ≤ exponent then
    if exponent ≤ maxPower then x.mul? (powerOfTen exponent.toNat)
    else if x.significand = 0 then some x
    else none
  else
    let down := (-exponent).toNat
    let times := (down - 1) / maxPower
    (x.shrink times).div? (powerOfTen (down - maxPower * times))

/-- The exponent of the first decimal digit of a fraction that is not zero. -/
def leadingPlace (num den : Nat) : Int :=
  if den ≤ num then ((Text.decimal (num / den)).length : Int) - 1
  else -(((List.range 400).find? fun j => den ≤ num * Nat.pow 10 j).getD 0 : Nat)

/-- A number of decimal digits at a place reads back as `x`. -/
def readsBack (x : Magnitude) (n : Nat) (place : Int) : Bool :=
  let value := if 0 ≤ place then ofFraction? (n * Nat.pow 10 place.toNat) 1
    else ofFraction? n (Nat.pow 10 (-place).toNat)
  value = some x

/-- The decimal of a given number of digits that reads back as `x`, the nearer of two, if there is
one: its digits and the place of the last one. -/
def decimalOfLength? (x : Magnitude) (length : Nat) : Option (Nat × Int) :=
  let (num, den) := x.fraction
  let place := leadingPlace num den - length + 1
  let (num, den) := if 0 ≤ place then (num, den * Nat.pow 10 place.toNat)
    else (num * Nat.pow 10 (-place).toNat, den)
  let below := num / den
  let nearest := roundDiv num den
  let other := if nearest = below then below + 1 else below
  if x.readsBack nearest place then some (nearest, place)
  else if x.readsBack other place then some (other, place)
  else none

/-- The shortest decimal that reads back as `x`: its digits and the place of the last one. -/
def shortest (x : Magnitude) : Nat × Int :=
  ((List.range 17).findSome? fun n => x.decimalOfLength? (n + 1)).getD (0, 0)

end Magnitude

/-- A finite number with its sign; zero has one too. -/
structure Binary64 where
  negative : Bool
  magnitude : Magnitude
  deriving DecidableEq, Inhabited

namespace Binary64

/-- Whether the first digit of a number stands at a place that is written without an exponent. -/
def isPositional (place : Int) : Bool := -5 ≤ place && place ≤ 15

/-- The digits with a point after the first `whole` of them, and zeros where digits are missing. -/
def positional (digits : List Char) (place : Int) : List Char :=
  if 0 ≤ place then
    let whole := place.toNat + 1
    let fraction := digits.drop whole
    digits.take whole ++ List.replicate (whole - digits.length) '0' ++ ['.'] ++
      (if fraction.isEmpty then ['0'] else fraction)
  else ['0', '.'] ++ List.replicate ((-place).toNat - 1) '0' ++ digits

/-- The digits with a point after the first and a signed exponent. -/
def scientific (digits : List Char) (place : Int) : List Char :=
  let fraction := digits.drop 1
  digits.take 1 ++ (if fraction.isEmpty then [] else '.' :: fraction) ++
    ['e', if place < 0 then '-' else '+'] ++ Text.decimal place.natAbs

/-- A number as its shortest decimal; a whole number is written with one zero after the point. -/
def text (x : Binary64) : List Char :=
  let body :=
    if x.magnitude.significand = 0 then ['0', '.', '0']
    else
      let (n, last) := x.magnitude.shortest
      let digits := Text.decimal n
      let place := last + digits.length - 1
      let digits := (digits.reverse.dropWhile (· == '0')).reverse
      if isPositional place then positional digits place else scientific digits place
  if x.negative then '-' :: body else body

end Binary64

end ContractBuild.Json
