import BuildCapture.Text.Numeral
import BuildCapture.Time.Instant
set_option autoImplicit false

namespace BuildCapture.Rfc3339

def yearWire (year : Int) : List Char :=
  if 0 ≤ year ∧ year ≤ 9999 then Numeral.padded '0' 4 year.toNat
  else (if year < 0 then '-' else '+') :: Numeral.padded '0' 4 year.natAbs

def dateWire (d : Calendar.Date) : List Char :=
  yearWire d.year ++ '-' :: Numeral.padded '0' 2 d.month ++ '-' :: Numeral.padded '0' 2 d.day

def fractionWire (nanos : Nat) : List Char :=
  if nanos = 0 then []
  else if nanos % 1000000 = 0 then '.' :: Numeral.padded '0' 3 (nanos / 1000000)
  else if nanos % 1000 = 0 then '.' :: Numeral.padded '0' 6 (nanos / 1000)
  else '.' :: Numeral.padded '0' 9 nanos

def timeWire (t : Instant) : List Char :=
  Numeral.padded '0' 2 t.hour ++ ':' :: Numeral.padded '0' 2 t.minute ++
    ':' :: Numeral.padded '0' 2 t.second ++ fractionWire t.subsecond

def wire (zone : List Char) (t : Instant) : List Char :=
  dateWire t.date ++ 'T' :: timeWire t ++ zone

def write (t : Instant) : String := String.ofList (wire ['Z'] t)

end BuildCapture.Rfc3339
