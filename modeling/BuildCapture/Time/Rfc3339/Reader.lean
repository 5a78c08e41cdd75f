import BuildCapture.Text.Blank
import BuildCapture.Text.Numeral
import BuildCapture.Time.Instant
set_option autoImplicit false

/-!
The reader of RFC 3339 dates and times. It also takes blanks before a number, before a dash or
colon, before the offset and at the end; fewer digits than RFC 3339 asks for; a signed year of any
length; and the zone name `UTC`. Each reader returns the text that it leaves.
-/

namespace BuildCapture.Rfc3339

inductive Error where
  | invalid
  | outOfRange
  | short
  | trailing
  | impossible
  deriving DecidableEq, Repr

def Error.message : Error → String
  | .invalid => "input contains invalid characters"
  | .outOfRange => "input is out of range"
  | .short => "premature end of input"
  | .trailing => "trailing input"
  | .impossible => "no possible date and time matching input"

abbrev Read (α : Type) := List Char → Except Error (α × List Char)

/-- At least one digit is taken from `window`, which starts `s`. -/
def readDigits (window : List Char) : Read Nat := fun s =>
  match window.takeWhile Char.isDigit with
  | [] => .error (if s.isEmpty then .short else .invalid)
  | digits =>
    let n := Numeral.value digits
    if n ≤ Int64.maxValue.toInt then .ok (n, s.drop digits.length)
    else .error .outOfRange

def readField (low high : Nat) : Read Nat := fun s => do
  let s := Text.dropBlank s
  let (n, rest) ← readDigits (s.take 2) s
  if low ≤ n ∧ n ≤ high then .ok (n, rest) else .error .outOfRange

def readYear : Read Int := fun s => do
  let (year, rest) ← match Text.dropBlank s with
    | '-' :: s => (readDigits s s).map fun (n, rest) => (-(n : Int), rest)
    | '+' :: s => (readDigits s s).map fun (n, rest) => ((n : Int), rest)
    | s => (readDigits (s.take 4) s).map fun (n, rest) => ((n : Int), rest)
  if Int32.minValue.toInt ≤ year ∧ year ≤ Int32.maxValue.toInt then .ok (year, rest)
  else .error .outOfRange

def readMark (mark : Char) (s : List Char) : Except Error (List Char) :=
  match Text.dropBlank s with
  | [] => .error .short
  | c :: rest => if c = mark then .ok rest else .error .invalid

def readSeparator : List Char → Except Error (List Char)
  | [] => .error .short
  | c :: rest => if c = 'T' ∨ c = 't' ∨ c = ' ' then .ok rest else .error .invalid

/-- The nanoseconds of a fraction, if there is one; digits past the ninth are dropped. -/
def readFraction : Read Nat
  | '.' :: s => do
    let (n, _) ← readDigits (s.take 9) s
    let digits := s.takeWhile Char.isDigit
    .ok (n * Nat.pow 10 (9 - digits.length), s.drop digits.length)
  | s => .ok (0, s)

/-- Two digits of an offset, the first at most `high`. A text of one byte ends too early; a longer
one that does not start with two digits is wrong. -/
def readPair (high : Char) : Read Nat
  | a :: b :: rest =>
    if a.isDigit ∧ b.isDigit then
      if a ≤ high then .ok (Numeral.value [a, b], rest) else .error .outOfRange
    else .error .invalid
  | [a] => .error (if a.utf8Size < 2 then .short else .invalid)
  | [] => .error .short

def isMinus (c : Char) : Bool := c = '-' || c = '\u2212'

def readOffset : Read Int := fun s =>
  match Text.dropBlank s with
  | [] => .error .short
  | c :: rest =>
    if c = 'Z' ∨ c = 'z' then .ok (0, rest)
    else if ((c :: rest).take 3).map Char.toUpper = ['U', 'T', 'C'] then .ok (0, rest.drop 2)
    else if c = '+' ∨ isMinus c then do
      let (hours, rest) ← readPair '9' rest
      let (minutes, rest) ← readPair '5' (rest.dropWhile fun c => c = ':' || Text.isBlank c)
      let offset : Int := hours * 3600 + minutes * 60
      .ok (if c = '+' then offset else -offset, rest)
    else .error .invalid

/-- The instant of a local date and time at the offset. Second 60 is the leap second that runs on
from second 59. -/
def resolve (year : Int) (month day hour minute second nanos : Nat) (offset : Int) :
    Except Error Instant := do
  if year < -262143 ∨ 262142 < year then throw .outOfRange
  let some date := Calendar.Date.ofYearMonthDay? year month day | throw .outOfRange
  if 86400 ≤ offset.natAbs then throw .outOfRange
  let leap := second = 60
  let shown : Int :=
    date.toDays * 86400 + (hour * 3600 + minute * 60 + if leap then 59 else second : Nat)
  match Instant.of? (shown - offset) (if leap then nanos + 1000000000 else nanos) with
  | some t => .ok t
  | none => .error .impossible

def readInstant (s : List Char) : Except Error Instant := do
  let (year, s) ← readYear s
  let s ← readMark '-' s
  let (month, s) ← readField 1 12 s
  let s ← readMark '-' s
  let (day, s) ← readField 1 31 s
  let s ← readSeparator s
  let (hour, s) ← readField 0 23 s
  let s ← readMark ':' s
  let (minute, s) ← readField 0 59 s
  let s ← readMark ':' s
  let (second, s) ← readField 0 60 s
  let (nanos, s) ← readFraction s
  let (offset, s) ← readOffset s
  if Text.dropBlank s ≠ [] then throw .trailing
  resolve year month day hour minute second nanos offset

def read (s : String) : Except Error Instant := readInstant s.toList

end BuildCapture.Rfc3339
