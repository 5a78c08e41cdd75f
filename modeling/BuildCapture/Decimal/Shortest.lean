import BuildCapture.Decimal.Binary64
set_option autoImplicit false

/-!
The fewest decimal digits that read back as the same double. For each number of digits the two
neighbours of the value on that decimal grid are tried against the interval of numbers that round to
the double.
-/

namespace BuildCapture.Decimal

structure Scientific where
  digits : Nat
  exponent : Int
  deriving DecidableEq, Repr

def Scientific.leading (s : Scientific) : Int :=
  s.exponent + (Nat.toDigits 10 s.digits).length - 1

/-- Which of two decimals is taken when the value lies half-way between them. -/
inductive Tie where
  | toEven
  | up
  deriving DecidableEq, Repr

def Tie.goesUp : Tie → (below : Nat) → Bool
  | .toEven, below => below % 2 = 1
  | .up, _ => true

def powerOfTen (n : Int) : Nat × Nat :=
  if 0 ≤ n then (Nat.pow 10 n.toNat, 1) else (1, Nat.pow 10 (-n).toNat)

namespace Magnitude

/-- The number of decimal digits before the point; not positive if zeros follow the point. -/
def decimalLength (x : Magnitude) : Int :=
  (Nat.toDigits 10 (x.ratio.1 * Nat.pow 10 400 / x.ratio.2)).length - 400

/-- The ends of the interval that rounds to `x`, in quarters of its last bit. Just above a power of
two the interval is shorter below. -/
def lowerEnd (x : Magnitude) : Nat :=
  4 * x.significand - if x.significand = leastNormal ∧ lowestExponent < x.exponent then 1 else 2

def upperEnd (x : Magnitude) : Nat := 4 * x.significand + 2

/-- Whether `candidate * 10 ^ exponent` rounds to `x`. The ends of the interval do when the
significand is even. -/
def admits (x : Magnitude) (exponent : Int) (candidate : Nat) : Bool :=
  let quarter := shifted 1 1 (x.exponent - 2)
  let grid := powerOfTen exponent
  let left := x.lowerEnd * quarter.1 * grid.2
  let middle := candidate * grid.1 * quarter.2
  let right := x.upperEnd * quarter.1 * grid.2
  if x.significand % 2 = 0 then left ≤ middle && middle ≤ right
  else left < middle && middle < right

def neighbour? (tie : Tie) (x : Magnitude) (exponent : Int) : Option Nat :=
  let grid := powerOfTen exponent
  let num := x.ratio.1 * grid.2
  let den := x.ratio.2 * grid.1
  let below := num / den
  let twice := 2 * (num % den)
  match x.admits exponent below, x.admits exponent (below + 1) with
  | true, true =>
    some (if den < twice ∨ twice = den ∧ tie.goesUp below then below + 1 else below)
  | true, false => some below
  | false, true => some (below + 1)
  | false, false => none

/-- The shortest decimal that reads back as `x`. The first grid holds only the power of ten above
`x`; one of seventeen digits always has a neighbour that reads back. -/
def shortest (tie : Tie) (x : Magnitude) : Scientific :=
  let places := (List.range 18).map fun n => x.decimalLength - (n : Nat)
  (places.findSome? fun exponent => (x.neighbour? tie exponent).map (⟨·, exponent⟩)).getD ⟨0, 0⟩

end Magnitude

structure FloatStyle where
  /-- Whether a first digit of this exponent is written without one. -/
  isPlain : Int → Bool
  tie : Tie

namespace FloatStyle

def plainWire (s : Scientific) : List Char :=
  let digits := Nat.toDigits 10 s.digits
  if 0 ≤ s.exponent then digits ++ List.replicate s.exponent.toNat '0' ++ ['.', '0']
  else
    let places := (-s.exponent).toNat
    let filled := digits.leftpad (places + 1) '0'
    filled.take (filled.length - places) ++ '.' :: filled.drop (filled.length - places)

def scientificWire (s : Scientific) : List Char :=
  let mantissa :=
    match Nat.toDigits 10 s.digits with
    | first :: second :: rest => first :: '.' :: second :: rest
    | digits => digits
  mantissa ++ 'e' :: (if s.leading < 0 then '-' else '+') :: Nat.toDigits 10 s.leading.natAbs

def magnitudeWire (style : FloatStyle) (x : Magnitude) : List Char :=
  if x.isZero then ['0', '.', '0']
  else
    let s := x.shortest style.tie
    if style.isPlain s.leading then plainWire s else scientificWire s

def write (style : FloatStyle) : Binary64 → String
  | .finite negative x =>
    String.ofList ((if negative then ['-'] else []) ++ style.magnitudeWire x)
  | .infinite negative => if negative then "-inf" else "inf"
  | .nan => "NaN"

def compact : FloatStyle where
  isPlain exponent := -5 ≤ exponent && exponent ≤ 15
  tie := .toEven

def positional : FloatStyle where
  isPlain _ := true
  tie := .up

end FloatStyle

end BuildCapture.Decimal
