set_option autoImplicit false

namespace BuildCapture.Pattern

inductive Padding where
  | none
  | spaces
  | zeros
  deriving DecidableEq, Repr

inductive Quantity where
  | year
  | isoYear
  | century
  | yearOfCentury
  | isoYearOfCentury
  | quarter
  | month
  | day
  | hour
  | hour12
  | minute
  | second
  | sundayWeek
  | mondayWeek
  | isoWeek
  | weekdayFromSunday
  | weekdayFromMonday
  | dayOfYear
  | nanosecond
  | epochSecond
  deriving DecidableEq, Repr

/-- How much of an offset is shown: `+0000`, `+00:00`, `+00:00:00` or `+00`. -/
inductive OffsetStyle where
  | packed
  | minutes
  | seconds
  | hours
  deriving DecidableEq, Repr

inductive Item where
  | text (c : Char)
  | number (quantity : Quantity) (padding : Padding)
  | monthName
  | monthShort
  | weekdayName
  | weekdayShort
  | lowerMeridiem
  | upperMeridiem
  /-- A point and 0, 3, 6 or 9 digits, as needed. -/
  | fraction
  /-- The first digits of the fraction, after a point if `point` says so. -/
  | fractionDigits (point : Bool) (count : Nat)
  | offset (style : OffsetStyle)
  /-- An offset that may leave out its minutes. It can be read but has no printed form. -/
  | looseOffset
  | zoneName
  /-- The whole date and time as RFC 3339 has it. -/
  | rfc3339
  deriving DecidableEq, Repr

def zeros (q : Quantity) : Item := .number q .zeros
def spaces (q : Quantity) : Item := .number q .spaces
def bare (q : Quantity) : Item := .number q .none

def clockTime : List Item :=
  [zeros .hour, .text ':', zeros .minute, .text ':', zeros .second]

def slashedDate : List Item :=
  [zeros .month, .text '/', zeros .day, .text '/', zeros .yearOfCentury]

def ofLetter : Char → Option (List Item)
  | 'A' => some [.weekdayName]
  | 'B' => some [.monthName]
  | 'C' => some [zeros .century]
  | 'D' | 'x' => some slashedDate
  | 'F' => some [zeros .year, .text '-', zeros .month, .text '-', zeros .day]
  | 'G' => some [zeros .isoYear]
  | 'H' => some [zeros .hour]
  | 'I' => some [zeros .hour12]
  | 'M' => some [zeros .minute]
  | 'P' => some [.lowerMeridiem]
  | 'R' => some [zeros .hour, .text ':', zeros .minute]
  | 'S' => some [zeros .second]
  | 'T' | 'X' => some clockTime
  | 'U' => some [zeros .sundayWeek]
  | 'V' => some [zeros .isoWeek]
  | 'W' => some [zeros .mondayWeek]
  | 'Y' => some [zeros .year]
  | 'Z' => some [.zoneName]
  | 'a' => some [.weekdayShort]
  | 'b' | 'h' => some [.monthShort]
  | 'c' => some ([.weekdayShort, .text ' ', .monthShort, .text ' ', spaces .day, .text ' '] ++
      clockTime ++ [.text ' ', zeros .year])
  | 'd' => some [zeros .day]
  | 'e' => some [spaces .day]
  | 'f' => some [zeros .nanosecond]
  | 'g' => some [zeros .isoYearOfCentury]
  | 'j' => some [zeros .dayOfYear]
  | 'k' => some [spaces .hour]
  | 'l' => some [spaces .hour12]
  | 'm' => some [zeros .month]
  | 'n' => some [.text '\n']
  | 'p' => some [.upperMeridiem]
  | 'q' => some [zeros .quarter]
  | 'r' => some ([zeros .hour12, .text ':', zeros .minute, .text ':', zeros .second, .text ' ',
      .upperMeridiem])
  | 's' => some [bare .epochSecond]
  | 't' => some [.text '\t']
  | 'u' => some [zeros .weekdayFromMonday]
  | 'v' => some [spaces .day, .text '-', .monthShort, .text '-', zeros .year]
  | 'w' => some [zeros .weekdayFromSunday]
  | 'y' => some [zeros .yearOfCentury]
  | 'z' => some [.offset .packed]
  | '+' => some [.rfc3339]
  | '%' => some [.text '%']
  | _ => none

/-- Only a specifier that prints a single number takes another padding. -/
def repad (padding : Padding) : List Item → Option Item
  | [.number q _] => some (.number q padding)
  | _ => none

/-- What the characters since the last complete item amount to. -/
inductive State where
  | plain
  /-- After `%`, and after a padding if there is one. -/
  | specifier (padding : Option Padding)
  /-- After `%#`. -/
  | alternate
  /-- After `%.` -/
  | point
  /-- After the digit count of a fraction. -/
  | digits (point : Bool) (count : Nat)
  /-- After `%` and so many colons. -/
  | colons (count : Nat)
  deriving DecidableEq, Repr

def fractionCount : Char → Option Nat
  | '3' => some 3
  | '6' => some 6
  | '9' => some 9
  | _ => none

def paddingOf : Char → Option Padding
  | '-' => some .none
  | '0' => some .zeros
  | '_' => some .spaces
  | _ => none

def afterPercent (c : Char) : Option State :=
  match paddingOf c, fractionCount c with
  | some padding, _ => some (.specifier (some padding))
  | none, some count => some (.digits false count)
  | none, none =>
    match c with
    | '#' => some .alternate
    | '.' => some .point
    | ':' => some (.colons 1)
    | _ => none

def complete : State → Char → Option (List Item)
  | .plain, c => some [.text c]
  | .specifier none, c => ofLetter c
  | .specifier (some padding), c => do return [← repad padding (← ofLetter c)]
  | .alternate, 'z' => some [.looseOffset]
  | .point, 'f' => some [.fraction]
  | .digits point count, 'f' => some [.fractionDigits point count]
  | .colons 1, 'z' => some [.offset .minutes]
  | .colons 2, 'z' => some [.offset .seconds]
  | .colons 3, 'z' => some [.offset .hours]
  | _, _ => none

def shift : State → Char → Option State
  | .plain, '%' => some (.specifier none)
  | .specifier none, c => afterPercent c
  | .point, c => (fractionCount c).map (.digits true)
  | .colons count, ':' => if count < 3 then some (.colons (count + 1)) else none
  | _, _ => none

def readFrom : State → List Char → Option (List Item)
  | .plain, [] => some []
  | _, [] => none
  | state, c :: rest =>
    match shift state c with
    | some next => readFrom next rest
    | none => do
      let items ← complete state c
      return items ++ (← readFrom .plain rest)

/-- The items of a pattern; none if a specifier is unknown or unfinished. -/
def read (pattern : String) : Option (List Item) := readFrom .plain pattern.toList

end BuildCapture.Pattern
