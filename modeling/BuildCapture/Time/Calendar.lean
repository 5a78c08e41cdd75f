set_option autoImplicit false

/-!
The proleptic Gregorian calendar. A day is counted from 1 January 1970; a date is its year and the
place of the day within that year. `Date.toDays_ofDays` and `Date.ofDays_toDays` say that the two
name the same thing.
-/

namespace BuildCapture.Calendar

/-- Days from 1 January of year 0 to 1 January of `year`. -/
def yearStart (year : Int) : Int :=
  365 * year + (year + 3) / 4 - (year + 99) / 100 + (year + 399) / 400

/-- Where day 0 lies: `yearStart 1970`. -/
def epoch : Int := 719528

def isLeap (year : Int) : Bool := year % 4 = 0 && (year % 100 ≠ 0 || year % 400 = 0)

def yearLength (year : Int) : Nat := if isLeap year then 366 else 365

theorem yearStart_succ (year : Int) : yearStart (year + 1) = yearStart year + yearLength year := by
  simp only [yearLength, isLeap, yearStart, Bool.and_eq_true, Bool.or_eq_true, decide_eq_true_eq]
  split <;> omega

/-- The year of the `n`th day after 1 January of year 0. The mean length of a year finds it up to
one year on either side. -/
def yearOf (n : Int) : Int :=
  let year := n * 400 / 146097
  if n < yearStart year then year - 1
  else if yearStart (year + 1) ≤ n then year + 1
  else year

theorem yearStart_yearOf_le (n : Int) : yearStart (yearOf n) ≤ n := by
  simp only [yearOf]
  split
  · unfold yearStart at *; omega
  · split <;> omega

theorem lt_yearStart_yearOf_succ (n : Int) : n < yearStart (yearOf n + 1) := by
  simp only [yearOf]
  split
  · simpa
  · split
    · unfold yearStart at *; omega
    · omega

def monthLengths (leap : Bool) : List Nat :=
  [31, if leap then 29 else 28, 31, 30, 31, 30, 31, 31, 30, 31, 30, 31]

def total (spans : List Nat) : Nat := spans.foldr (· + ·) 0

theorem total_monthLengths (year : Int) : total (monthLengths (isLeap year)) = yearLength year := by
  unfold yearLength; cases isLeap year <;> rfl

/-- Which of the consecutive spans the `n`th day falls into, and its place there. -/
def split : List Nat → Nat → Nat × Nat
  | [], n => (0, n)
  | span :: rest, n =>
    if n < span then (0, n) else ((split rest (n - span)).1 + 1, (split rest (n - span)).2)

theorem total_take_split (spans : List Nat) (n : Nat) :
    total (spans.take (split spans n).1) + (split spans n).2 = n := by
  induction spans generalizing n with
  | nil => simp [split, total]
  | cons span rest ih =>
    have := ih (n - span)
    simp only [split]
    split
    · simp [total]
    · simp only [total, List.take_succ_cons, List.foldr_cons] at *
      omega

structure Date where
  year : Int
  ordinal : Nat
  ordinal_lt : ordinal < yearLength year
  deriving DecidableEq

namespace Date

def ofDays (n : Int) : Date where
  year := yearOf (n + epoch)
  ordinal := (n + epoch - yearStart (yearOf (n + epoch))).toNat
  ordinal_lt := by
    have := yearStart_yearOf_le (n + epoch)
    have := lt_yearStart_yearOf_succ (n + epoch)
    rw [yearStart_succ] at this
    omega

def toDays (d : Date) : Int := yearStart d.year + d.ordinal - epoch

@[simp] theorem toDays_ofDays (n : Int) : (ofDays n).toDays = n := by
  have := yearStart_yearOf_le (n + epoch)
  simp only [toDays, ofDays]; omega

theorem yearStart_mono {a b : Int} (h : a ≤ b) : yearStart a ≤ yearStart b := by
  unfold yearStart; omega

@[simp] theorem ofDays_toDays (d : Date) : ofDays d.toDays = d := by
  obtain ⟨year, ordinal, h⟩ := d
  have hy : yearOf (yearStart year + ordinal) = year := by
    have h1 := yearStart_yearOf_le (yearStart year + ordinal)
    have h2 := lt_yearStart_yearOf_succ (yearStart year + ordinal)
    have h3 := yearStart_succ year
    rcases Int.lt_trichotomy (yearOf (yearStart year + ordinal)) year with lt | eq | gt
    · have := yearStart_mono (show yearOf (yearStart year + ordinal) + 1 ≤ year by omega); omega
    · exact eq
    · have := yearStart_mono (show year + 1 ≤ yearOf (yearStart year + ordinal) by omega); omega
  simp only [toDays, ofDays, Int.sub_add_cancel, hy, mk.injEq, true_and]
  omega

def month (d : Date) : Nat := (split (monthLengths (isLeap d.year)) d.ordinal).1 + 1

def day (d : Date) : Nat := (split (monthLengths (isLeap d.year)) d.ordinal).2 + 1

/-- The date of a year, a month from 1 and a day of the month from 1, if there is such a day. -/
def ofYearMonthDay? (year : Int) (month day : Nat) : Option Date :=
  let lengths := monthLengths (isLeap year)
  match lengths[month - 1]? with
  | none => none
  | some length =>
    let ordinal := total (lengths.take (month - 1)) + (day - 1)
    if h : ordinal < yearLength year then
      if 1 ≤ month ∧ 1 ≤ day ∧ day ≤ length then some ⟨year, ordinal, h⟩ else none
    else none

/-- The day of the week, from 0 for Sunday. -/
def weekday (d : Date) : Nat := ((d.toDays + 4) % 7).toNat

def weekdayFromMonday (d : Date) : Nat := (d.weekday + 6) % 7

/-- The number of weeks begun on a Sunday so far this year. -/
def sundayWeek (d : Date) : Nat := (d.ordinal + 7 - d.weekday) / 7

def mondayWeek (d : Date) : Nat := (d.ordinal + 7 - d.weekdayFromMonday) / 7

/-- The Thursday of the week that starts on Monday; its year and place there name the ISO week. -/
def thursday (d : Date) : Date := ofDays (d.toDays + 3 - d.weekdayFromMonday)

def isoYear (d : Date) : Int := d.thursday.year

def isoWeek (d : Date) : Nat := d.thursday.ordinal / 7 + 1

def quarter (d : Date) : Nat := (d.month - 1) / 3 + 1

end Date

end BuildCapture.Calendar
