import BuildCapture.Text.Numeral
import BuildCapture.Toml.Node
import BuildCapture.Toml.Text
set_option autoImplicit false

namespace BuildCapture.Toml

open Decimal (Magnitude Binary64)

def readMoreDigits (isDigit : Char → Bool) : Read (List Char)
  | '_' :: c :: rest =>
    if isDigit c then (readMoreDigits isDigit rest).map (prepend c) else none
  | ['_'] => none
  | c :: rest =>
    if isDigit c then (readMoreDigits isDigit rest).map (prepend c) else some ([], c :: rest)
  | [] => some ([], [])

def readDigits (isDigit : Char → Bool) : Read (List Char)
  | c :: rest => if isDigit c then (readMoreDigits isDigit rest).map (prepend c) else none
  | [] => none

def digitsValue (base : Nat) (digits : List Char) : Nat :=
  digits.foldl (fun n c => base * n + (Json.hexValue c).getD 0) 0

def intNode? (n : Int) : Option Node :=
  if Int64.minValue.toInt ≤ n ∧ n ≤ Int64.maxValue.toInt then some (.int n) else none

def readBased (base : Nat) (isDigit : Char → Bool) : Read Node := fun s => do
  let (digits, rest) ← readDigits isDigit s
  return (← intNode? (digitsValue base digits), rest)

def readFraction : Read (List Char)
  | '.' :: rest => readDigits Char.isDigit rest
  | s => some ([], s)

def readExponent : Read (Option Int)
  | c :: rest =>
    if c = 'e' ∨ c = 'E' then do
      let (negative, rest) :=
        match rest with
        | '-' :: rest => (true, rest)
        | '+' :: rest => (false, rest)
        | rest => (false, rest)
      let (digits, rest) ← readDigits Char.isDigit rest
      let n : Int := Numeral.value digits
      return (some (if negative then -n else n), rest)
    else some (none, c :: rest)
  | [] => some (none, [])

/-- A number beyond the range of doubles is infinite if it is negative, and refused if it is not. -/
def floatNode? (negative : Bool) (digits : List Char) (exponent : Int) : Option Node :=
  match Magnitude.ofDecimal (Numeral.value digits) exponent with
  | some x => some (.float (.finite negative x))
  | none => if negative then some (.float (.infinite true)) else none

/-- No zero stands before another digit. -/
def readWhole : Read (List Char)
  | '0' :: rest => some (['0'], rest)
  | s => readDigits Char.isDigit s

def readDecimal (negative : Bool) : Read Node := fun s => do
  let (whole, rest) ← readWhole s
  let (fraction, rest) ← readFraction rest
  let (exponent, rest) ← readExponent rest
  if fraction.isEmpty ∧ exponent.isNone then
    let n : Int := Numeral.value whole
    return (← intNode? (if negative then -n else n), rest)
  else
    let exponent := exponent.getD 0 - fraction.length
    return (← floatNode? negative (whole ++ fraction) exponent, rest)

def isOctal (c : Char) : Bool := '0' ≤ c && c ≤ '7'

def isBinary (c : Char) : Bool := c = '0' || c = '1'

def readSigned (negative : Bool) : Read Node
  | 'i' :: 'n' :: 'f' :: rest => some (.float (.infinite negative), rest)
  | 'n' :: 'a' :: 'n' :: rest => some (.float .nan, rest)
  | s => readDecimal negative s

def readNumber : Read Node
  | '0' :: 'x' :: rest => readBased 16 (fun c => (Json.hexValue c).isSome) rest
  | '0' :: 'o' :: rest => readBased 8 isOctal rest
  | '0' :: 'b' :: rest => readBased 2 isBinary rest
  | '+' :: rest => readSigned false rest
  | '-' :: rest => readSigned true rest
  | s => readSigned false s

def readField (count low high : Nat) : Read Nat := fun s =>
  let digits := s.take count
  if digits.length = count ∧ digits.all Char.isDigit ∧ low ≤ Numeral.value digits ∧
      Numeral.value digits ≤ high then
    some (Numeral.value digits, s.drop count)
  else none

def readMark (mark : Char) : List Char → Option (List Char)
  | c :: rest => if c = mark then some rest else none
  | [] => none

def readDate (s : List Char) : Option (List Char) := do
  let (year, s) ← readField 4 0 9999 s
  let (month, s) ← readField 2 1 12 (← readMark '-' s)
  let (day, s) ← readField 2 1 31 (← readMark '-' s)
  let length := (Calendar.monthLengths (Calendar.isLeap year)).getD (month - 1) 0
  if day ≤ length then some s else none

def readTime (s : List Char) : Option (List Char) := do
  let (_, s) ← readField 2 0 23 s
  let (_, s) ← readField 2 0 59 (← readMark ':' s)
  let (_, s) ← readField 2 0 60 (← readMark ':' s)
  match s with
  | '.' :: c :: rest => some (if c.isDigit then rest.dropWhile Char.isDigit else s)
  | s => some s

def readOffset (s : List Char) : Option (List Char) :=
  match s with
  | c :: rest =>
    if c = 'Z' ∨ c = 'z' then some rest
    else if c = '+' ∨ c = '-' then do
      let (_, rest) ← readField 2 0 23 rest
      let (_, rest) ← readField 2 0 59 (← readMark ':' rest)
      some rest
    else none
  | [] => none

def readTimeOfDate (s : List Char) : Option (List Char) :=
  match s with
  | c :: rest => do
    if c = 'T' ∨ c = 't' ∨ c = ' ' then
      let s ← readTime rest
      some ((readOffset s).getD s)
    else none
  | [] => none

def readDateTime (s : List Char) : Option (List Char) :=
  match readDate s with
  | some s => some ((readTimeOfDate s).getD s)
  | none => readTime s

end BuildCapture.Toml
