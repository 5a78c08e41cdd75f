set_option autoImplicit false

/-!
Doubles in exact arithmetic. A finite double is a sign and a magnitude `significand * 2 ^ exponent`;
`Magnitude.round` takes a quotient to the nearest magnitude, and to the even one of two.
-/

namespace BuildCapture.Decimal

/-- The number `significand * 2 ^ exponent`. A rounded one has 53 significant bits, or fewer at the
lowest exponent. -/
structure Magnitude where
  significand : Nat
  exponent : Int
  deriving DecidableEq, Repr

inductive Binary64 where
  | finite (negative : Bool) (magnitude : Magnitude)
  | infinite (negative : Bool)
  | nan
  deriving DecidableEq, Repr

def divRound (num den : Nat) : Nat :=
  let quotient := num / den
  let twice := 2 * (num % den)
  if twice < den ∨ twice = den ∧ quotient % 2 = 0 then quotient else quotient + 1

def shifted (num den : Nat) (shift : Int) : Nat × Nat :=
  if 0 ≤ shift then (num * Nat.pow 2 shift.toNat, den) else (num, den * Nat.pow 2 (-shift).toNat)

namespace Magnitude

def lowestExponent : Int := -1074

def highestExponent : Int := 971

def leastNormal : Nat := Nat.pow 2 52

def zero : Magnitude := ⟨0, lowestExponent⟩

def isZero (x : Magnitude) : Bool := x.significand = 0

def ratio (x : Magnitude) : Nat × Nat := shifted x.significand 1 x.exponent

/-- The magnitude nearest to `num / den`; none if that is beyond the greatest one. -/
def round (num den : Nat) : Option Magnitude :=
  let estimate : Int := (num.log2 : Int) - den.log2 - 52
  let reduced (exponent : Int) : Nat × Nat := shifted num den (-exponent)
  let exponent :=
    max lowestExponent <|
      if (reduced estimate).1 < leastNormal * (reduced estimate).2 then estimate - 1 else estimate
  let significand := divRound (reduced exponent).1 (reduced exponent).2
  let (significand, exponent) :=
    if significand = 2 * leastNormal then (leastNormal, exponent + 1) else (significand, exponent)
  if highestExponent < exponent then none else some ⟨significand, exponent⟩

def mul (x y : Magnitude) : Option Magnitude :=
  round (x.ratio.1 * y.ratio.1) (x.ratio.2 * y.ratio.2)

def div (x y : Magnitude) : Option Magnitude :=
  round (x.ratio.1 * y.ratio.2) (x.ratio.2 * y.ratio.1)

/-- The magnitude nearest to `digits * 10 ^ exponent`. The number of digits settles the exponents
far out of range. -/
def ofDecimal (digits : Nat) (exponent : Int) : Option Magnitude :=
  let top := (Nat.toDigits 10 digits).length + exponent
  if digits = 0 ∨ top < -400 then some zero
  else if 400 < top then none
  else if 0 ≤ exponent then round (digits * Nat.pow 10 exponent.toNat) 1
  else round digits (Nat.pow 10 (-exponent).toNat)

end Magnitude

end BuildCapture.Decimal
