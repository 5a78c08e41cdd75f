import BuildCapture.Json.Text
set_option autoImplicit false

/-!
Number literals. A literal without fraction and exponent is an integer if it fits 64 bits, signed or
not; any other one is a double. Its digits are gathered into 64 bits as far as they fit, and the
double nearest to these is scaled by a double power of ten.
-/

namespace BuildCapture.Json

open Decimal (Magnitude Binary64)

structure NumberParts where
  negative : Bool
  whole : List Char
  fraction : List Char
  /-- The sign and the digits of the exponent. -/
  exponent : Option (Bool × List Char)
  isInteger : Bool

/-- Appends digits to a number while it fits 64 bits; also tells how many fitted. -/
def gather : Nat → List Char → Nat × Nat
  | n, [] => (n, 0)
  | n, c :: rest =>
    let next := 10 * n + (c.toNat - '0'.toNat)
    if next < UInt64.size then ((gather next rest).1, (gather next rest).2 + 1) else (n, 0)

def scaleDown (x : Magnitude) (places : Nat) : Option Magnitude :=
  if places ≤ 308 then do x.div (← Magnitude.ofDecimal 1 places)
  else if x.isZero then some x
  else do scaleDown (← x.div (← Magnitude.ofDecimal 1 308)) (places - 308)
termination_by places

def scale (digits : Nat) (exponent : Int) : Option Magnitude := do
  let x ← Magnitude.round digits 1
  if exponent < 0 then scaleDown x (-exponent).toNat
  else if exponent ≤ 308 then x.mul (← Magnitude.ofDecimal 1 exponent)
  else if x.isZero then some x
  else none

namespace NumberParts

/-- The magnitude as a double. Exponents beyond 32 bits settle it without scaling. -/
def magnitude (p : NumberParts) : Option Magnitude :=
  let (digits, taken) := gather 0 p.whole
  let before : Int := p.whole.length - taken
  let (digits, places) := gather digits p.fraction
  match p.exponent with
  | none => scale digits (before - places)
  | some (negative, exponent) =>
    if Int32.maxValue.toInt < Numeral.value exponent then
      if digits ≠ 0 ∧ !negative then none else some Magnitude.zero
    else
      let exponent : Int := Numeral.value exponent
      scale digits (before - places + if negative then -exponent else exponent)

def scalar (p : NumberParts) : Except Fault Scalar :=
  let n := Numeral.value p.whole
  if p.isInteger ∧ !p.negative ∧ n < UInt64.size then .ok (.int n)
  else if p.isInteger ∧ p.negative ∧ 0 < n ∧ Int64.minValue.toInt ≤ -n then .ok (.int (-n))
  else
    match p.magnitude with
    | some x => .ok (.float (.finite p.negative x))
    | none => .error .malformed

end NumberParts

/-- Digits are wanted but the text goes on otherwise. A reader tells its end from other characters;
skipping does not. -/
def noDigits {α : Type} (s : List Char) : Scanned α :=
  ⟨.error (if s.isEmpty then .ended else .malformed), .error .malformed⟩

def digitsOf (s : List Char) : List Char := s.takeWhile Char.isDigit

def afterDigits (s : List Char) : List Char := s.dropWhile Char.isDigit

def scanExponent (p : NumberParts) (s : List Char) : Scanned Scalar :=
  let finish (p : NumberParts) (s : List Char) : Scanned Scalar := ⟨p.scalar, .ok s⟩
  let exponent (negative : Bool) (s : List Char) : Scanned Scalar :=
    if (digitsOf s).isEmpty then noDigits s
    else
      let p := { p with exponent := some (negative, digitsOf s), isInteger := false }
      finish p (afterDigits s)
  match s with
  | c :: rest =>
    if c = 'e' ∨ c = 'E' then
      match rest with
      | '-' :: rest => exponent true rest
      | '+' :: rest => exponent false rest
      | rest => exponent false rest
    else finish p s
  | [] => finish p s

def scanFraction (p : NumberParts) : List Char → Scanned Scalar
  | '.' :: rest =>
    if (digitsOf rest).isEmpty then noDigits rest
    else scanExponent { p with fraction := digitsOf rest, isInteger := false } (afterDigits rest)
  | s => scanExponent p s

def scanWhole (negative : Bool) (s : List Char) : Scanned Scalar :=
  match digitsOf s with
  | [] => noDigits s
  | '0' :: _ :: _ => .fail .malformed
  | whole => scanFraction ⟨negative, whole, [], none, true⟩ (afterDigits s)

def scanNumber : List Char → Scanned Scalar
  | '-' :: rest => scanWhole true rest
  | s => scanWhole false s

end BuildCapture.Json
