import BuildCapture.Time.Pattern
import BuildCapture.Time.Rfc3339.Writer
set_option autoImplicit false

namespace BuildCapture.Pattern

def monthNames : List String :=
  ["January", "February", "March", "April", "May", "June", "July", "August", "September", "October",
    "November", "December"]

def weekdayNames : List String :=
  ["Sunday", "Monday", "Tuesday", "Wednesday", "Thursday", "Friday", "Saturday"]

def nameAt (names : List String) (i : Nat) : List Char := (names.getD i "").toList

/-- A byte in two characters. The first one counts the tens from `0` on, past `9` too. -/
def pairWire (n : Nat) (padding : Padding) : List Char :=
  let tens := n / 10
  let ones := Nat.digitChar (n % 10)
  match padding, tens with
  | .none, 0 => [ones]
  | .spaces, 0 => [' ', ones]
  | _, _ => [Char.ofNat ('0'.toNat + tens), ones]

/-- A number filled up to `width` characters, its sign counted. Zeros stand after the sign and
spaces before it. -/
def numberWire (width : Nat) (n : Int) (padding : Padding) (plus : Bool) : List Char :=
  let sign := if n < 0 then ['-'] else if plus then ['+'] else []
  match padding with
  | .none => sign ++ Nat.toDigits 10 n.natAbs
  | .zeros => sign ++ Numeral.padded '0' (width - sign.length) n.natAbs
  | .spaces => (sign ++ Nat.toDigits 10 n.natAbs).leftpad width ' '

def yearWire (year : Int) (padding : Padding) : List Char :=
  if 0 ≤ year ∧ year ≤ 9999 then numberWire 4 year padding false
  else numberWire 5 year padding true

def quantityWire (t : Instant) (padding : Padding) : Quantity → List Char
  | .year => yearWire t.date.year padding
  | .isoYear => yearWire t.date.isoYear padding
  | .century => pairWire (t.date.year / 100 % 256).toNat padding
  | .yearOfCentury => pairWire (t.date.year % 100).toNat padding
  | .isoYearOfCentury => pairWire (t.date.isoYear % 100).toNat padding
  | .quarter => [Nat.digitChar t.date.quarter]
  | .month => pairWire t.date.month padding
  | .day => pairWire t.date.day padding
  | .hour => pairWire t.hour padding
  | .hour12 => pairWire t.hour12 padding
  | .minute => pairWire t.minute padding
  | .second => pairWire t.second padding
  | .sundayWeek => pairWire t.date.sundayWeek padding
  | .mondayWeek => pairWire t.date.mondayWeek padding
  | .isoWeek => pairWire t.date.isoWeek padding
  | .weekdayFromSunday => [Nat.digitChar t.date.weekday]
  | .weekdayFromMonday => [Nat.digitChar (t.date.weekdayFromMonday + 1)]
  | .dayOfYear => numberWire 3 (t.date.ordinal + 1) padding false
  | .nanosecond => numberWire 9 t.subsecond padding false
  | .epochSecond => numberWire 9 t.seconds padding false

def offsetWire : OffsetStyle → List Char
  | .packed => ['+', '0', '0', '0', '0']
  | .minutes => ['+', '0', '0', ':', '0', '0']
  | .seconds => ['+', '0', '0', ':', '0', '0', ':', '0', '0']
  | .hours => ['+', '0', '0']

def itemWire (t : Instant) : Item → Option (List Char)
  | .text c => some [c]
  | .number q padding => some (quantityWire t padding q)
  | .monthName => some (nameAt monthNames (t.date.month - 1))
  | .monthShort => some ((nameAt monthNames (t.date.month - 1)).take 3)
  | .weekdayName => some (nameAt weekdayNames t.date.weekday)
  | .weekdayShort => some ((nameAt weekdayNames t.date.weekday).take 3)
  | .lowerMeridiem => some (if t.hour < 12 then ['a', 'm'] else ['p', 'm'])
  | .upperMeridiem => some (if t.hour < 12 then ['A', 'M'] else ['P', 'M'])
  | .fraction => some (Rfc3339.fractionWire t.subsecond)
  | .fractionDigits point count =>
    some ((if point then ['.'] else []) ++
      Numeral.padded '0' count (t.subsecond / Nat.pow 10 (9 - count)))
  | .offset style => some (offsetWire style)
  | .looseOffset => none
  | .zoneName => some ['U', 'T', 'C']
  | .rfc3339 => some (Rfc3339.wire ['+', '0', '0', ':', '0', '0'] t)

def wire (items : List Item) (t : Instant) : Option (List Char) :=
  (items.mapM (itemWire t)).map List.flatten

end BuildCapture.Pattern
