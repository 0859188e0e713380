import SuiteLint.Text.Numeral

/-!
# Binary numbers of double precision

Decimal numbers in documents are read into binary numbers with 53 significant bits. Everything is
exact arithmetic on natural numbers: a finite value is a mantissa times a power of two, and a
decimal number becomes the nearest such value, the one with the even mantissa when two are
equally near.
-/

namespace SuiteLint.Decimal

/-- A number of double precision: `mantissa * 2 ^ exponent`, an infinity, or no number. -/
inductive Binary where
  | finite (negative : Bool) (mantissa : Nat) (exponent : Int)
  | infinite (negative : Bool)
  | undefined
deriving DecidableEq

def pow2 (k : Nat) : Nat :=
  Nat.pow 2 k

def pow10 (k : Nat) : Nat :=
  Nat.pow 10 k

/-- The quotient rounded to the nearest natural number, a half to the even one. -/
def roundDiv (num den : Nat) : Nat :=
  let q := num / den
  let r := num % den
  if den < 2 * r ∨ (2 * r = den ∧ q % 2 = 1) then q + 1 else q

/-- The least exponent of a finite number. -/
def minExponent : Int := -1074

/-- The greatest exponent of a finite number. -/
def maxExponent : Int := 971

/-- The greatest `e` with `2 ^ e ≤ num / den`, for positive numbers. -/
def log2Ratio (num den : Nat) : Int :=
  let guess : Int := (num.log2 : Int) - den.log2
  let reached :=
    if 0 ≤ guess then den * pow2 guess.toNat ≤ num else den ≤ num * pow2 (-guess).toNat
  if reached then guess else guess - 1

namespace Binary

/-- The number nearest to a positive ratio. -/
def ofRatio (negative : Bool) (num den : Nat) : Binary :=
  let exponent := max minExponent (log2Ratio num den - 52)
  let mantissa :=
    if 0 ≤ exponent then roundDiv num (den * pow2 exponent.toNat)
    else roundDiv (num * pow2 (-exponent).toNat) den
  let (mantissa, exponent) :=
    if mantissa = pow2 53 then (pow2 52, exponent + 1) else (mantissa, exponent)
  if maxExponent < exponent then .infinite negative else .finite negative mantissa exponent

/-- Decimal exponents beyond this distance leave no doubt about the result. -/
def farExponent : Int := 400

/-- The number nearest to `digits * 10 ^ exponent`. -/
def ofDecimal (negative : Bool) (digits : List Nat) (exponent : Int) : Binary :=
  let n := Text.ofDigits digits
  if n = 0 then .finite negative 0 0
  else if farExponent < exponent then .infinite negative
  else if exponent < -(farExponent + digits.length) then .finite negative 0 0
  else if 0 ≤ exponent then ofRatio negative (n * pow10 exponent.toNat) 1
  else ofRatio negative n (pow10 (-exponent).toNat)

/-- The integer part of `mantissa * 2 ^ exponent`. -/
def wholePart (mantissa : Nat) (exponent : Int) : Nat :=
  if 0 ≤ exponent then mantissa * pow2 exponent.toNat else mantissa / pow2 (-exponent).toNat

end Binary

end SuiteLint.Decimal
