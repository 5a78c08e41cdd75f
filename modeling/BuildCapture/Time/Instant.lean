import BuildCapture.Time.Calendar
set_option autoImplicit false

/-!
Instants in UTC to the nanosecond. A leap second is the second 60 that a last second of a minute may
run on into: it keeps the count of that second, and its nanoseconds start at 10⁹.
-/

namespace BuildCapture

/-- The first second of the year -262143, counted from 1 January 1970. -/
def firstSecond : Int := 86400 * (Calendar.yearStart (-262143) - Calendar.epoch)

/-- The last second of the year 262142, counted from 1 January 1970. -/
def lastSecond : Int := 86400 * (Calendar.yearStart 262143 - Calendar.epoch) - 1

structure Instant where
  seconds : Int
  nanos : Nat
  first_le : firstSecond ≤ seconds
  le_last : seconds ≤ lastSecond
  nanos_lt : nanos < if seconds % 60 = 59 then 2000000000 else 1000000000
  deriving DecidableEq

namespace Instant

def of? (seconds : Int) (nanos : Nat) : Option Instant :=
  if h : firstSecond ≤ seconds ∧ seconds ≤ lastSecond ∧
      nanos < if seconds % 60 = 59 then 2000000000 else 1000000000 then
    some ⟨seconds, nanos, h.1, h.2.1, h.2.2⟩
  else none

@[ext] theorem ext {s t : Instant} (hs : s.seconds = t.seconds) (hn : s.nanos = t.nanos) :
    s = t := by
  cases s; cases t; simp_all

/-- Earlier seconds come first, and within a second fewer nanoseconds; a leap second comes last in
its minute. -/
instance : LE Instant where
  le s t := s.seconds < t.seconds ∨ s.seconds = t.seconds ∧ s.nanos ≤ t.nanos

instance (s t : Instant) : Decidable (s ≤ t) :=
  inferInstanceAs (Decidable (s.seconds < t.seconds ∨ s.seconds = t.seconds ∧ s.nanos ≤ t.nanos))

def isLeapSecond (t : Instant) : Bool := 1000000000 ≤ t.nanos

def day (t : Instant) : Int := t.seconds / 86400

def date (t : Instant) : Calendar.Date := .ofDays t.day

def secondOfDay (t : Instant) : Nat := (t.seconds % 86400).toNat

def hour (t : Instant) : Nat := t.secondOfDay / 3600

def hour12 (t : Instant) : Nat := (t.hour + 11) % 12 + 1

def minute (t : Instant) : Nat := t.secondOfDay / 60 % 60

/-- The second of the minute, 60 in a leap second. -/
def second (t : Instant) : Nat := t.secondOfDay % 60 + t.nanos / 1000000000

def subsecond (t : Instant) : Nat := t.nanos % 1000000000

/-- The nanoseconds from `s` to `t`. A leap second lasts a second of its own where the other instant
is at a later second of its day. -/
def nanosSince (t s : Instant) : Int :=
  let leap : Int :=
    if s.secondOfDay < t.secondOfDay && s.isLeapSecond then 1
    else if t.secondOfDay < s.secondOfDay && t.isLeapSecond then -1
    else 0
  (t.seconds - s.seconds + leap) * 1000000000 + (t.nanos - s.nanos)

def millisSince (t s : Instant) : Int := (t.nanosSince s).tdiv 1000000

end Instant

end BuildCapture
