import BuildCapture.Proofs.Time.RoundTrip
set_option autoImplicit false

namespace BuildCapture

namespace Calendar

theorem split_lt_iff (spans : List Nat) (m n : Nat) :
    m < n ↔ (split spans m).1 < (split spans n).1 ∨
      (split spans m).1 = (split spans n).1 ∧ (split spans m).2 < (split spans n).2 := by
  induction spans generalizing m n with
  | nil => simp [split]
  | cons span rest ih =>
    have later := ih (m - span) (n - span)
    by_cases hm : m < span <;> by_cases hn : n < span
    · simp [split, hm, hn]
    · simp only [split, if_pos hm, if_neg hn]
      omega
    · simp only [split, if_neg hm, if_pos hn]
      omega
    · simp only [split, if_neg hm, if_neg hn]
      omega

theorem Date.toDays_lt_iff (d e : Date) :
    d.toDays < e.toDays ↔ d.year < e.year ∨
      d.year = e.year ∧ (d.month < e.month ∨ d.month = e.month ∧ d.day < e.day) := by
  have hd := d.ordinal_lt
  have he := e.ordinal_lt
  have endOf := yearStart_succ d.year
  have endOf' := yearStart_succ e.year
  simp only [toDays]
  rcases Int.lt_trichotomy d.year e.year with before | same | behind
  · have mono := yearStart_mono (show d.year + 1 ≤ e.year by omega)
    omega
  · have order := split_lt_iff (monthLengths (isLeap d.year)) d.ordinal e.ordinal
    simp only [month, day, ← same, Int.lt_irrefl, true_and, false_or] at order ⊢
    omega
  · have mono := yearStart_mono (show e.year + 1 ≤ d.year by omega)
    omega

end Calendar

namespace Instant

instance : LT Instant where
  lt s t := s.seconds < t.seconds ∨ s.seconds = t.seconds ∧ s.nanos < t.nanos

instance (s t : Instant) : Decidable (s < t) :=
  inferInstanceAs (Decidable (s.seconds < t.seconds ∨ s.seconds = t.seconds ∧ s.nanos < t.nanos))

theorem lt_iff {s t : Instant} :
    s < t ↔ s.seconds < t.seconds ∨ s.seconds = t.seconds ∧ s.nanos < t.nanos := Iff.rfl

theorem le_iff {s t : Instant} :
    s ≤ t ↔ s.seconds < t.seconds ∨ s.seconds = t.seconds ∧ s.nanos ≤ t.nanos := Iff.rfl

/-- The instant without what it shows below a millisecond. -/
def wholeMillis (t : Instant) : Instant where
  seconds := t.seconds
  nanos := t.nanos / 1000000 * 1000000
  first_le := t.first_le
  le_last := t.le_last
  nanos_lt := Nat.lt_of_le_of_lt (Nat.div_mul_le_self _ _) t.nanos_lt

@[simp] theorem date_wholeMillis (t : Instant) : t.wholeMillis.date = t.date := rfl

@[simp] theorem hour_wholeMillis (t : Instant) : t.wholeMillis.hour = t.hour := rfl

@[simp] theorem minute_wholeMillis (t : Instant) : t.wholeMillis.minute = t.minute := rfl

@[simp] theorem second_wholeMillis (t : Instant) : t.wholeMillis.second = t.second := by
  simp only [second, secondOfDay, wholeMillis]
  omega

@[simp] theorem subsecond_wholeMillis (t : Instant) :
    t.wholeMillis.subsecond = t.subsecond / 1000000 * 1000000 := by
  simp only [subsecond, wholeMillis]
  omega

@[simp] theorem isLeapSecond_wholeMillis (t : Instant) :
    t.wholeMillis.isLeapSecond = t.isLeapSecond := by
  exact decide_eq_decide.2 (by simp only [wholeMillis]; omega)

theorem secondOfDay_eq (t : Instant) :
    t.secondOfDay = t.hour * 3600 + t.minute * 60 + t.secondOfDay % 60 := by
  simp only [hour, minute]
  omega

theorem seconds_eq_day (t : Instant) : t.seconds = t.day * 86400 + t.secondOfDay := by
  simp only [day, secondOfDay]
  omega

theorem secondOfDay_lt (t : Instant) : t.secondOfDay < 86400 := by
  simp only [secondOfDay]
  omega

theorem second_lt_iff (s t : Instant) :
    (s.secondOfDay % 60 < t.secondOfDay % 60 ∨
      s.secondOfDay % 60 = t.secondOfDay % 60 ∧ s.nanos / 1000000 < t.nanos / 1000000) ↔
    s.second < t.second ∨
      s.second = t.second ∧ s.subsecond / 1000000 < t.subsecond / 1000000 := by
  have hs := s.second_eq
  have ht := t.second_eq
  have place : s.secondOfDay % 60 < 60 := Nat.mod_lt _ (by decide)
  have place' : t.secondOfDay % 60 < 60 := Nat.mod_lt _ (by decide)
  have bound := s.nanos_lt_two
  have bound' := t.nanos_lt_two
  simp only [subsecond]
  omega

theorem wholeMillis_lt_iff (s t : Instant) :
    s.wholeMillis < t.wholeMillis ↔
      s.date.toDays < t.date.toDays ∨ s.date.toDays = t.date.toDays ∧
        (s.hour < t.hour ∨ s.hour = t.hour ∧ (s.minute < t.minute ∨ s.minute = t.minute ∧
          (s.second < t.second ∨
            s.second = t.second ∧ s.subsecond / 1000000 < t.subsecond / 1000000))) := by
  have day (t : Instant) : t.date.toDays = t.day := Calendar.Date.toDays_ofDays t.day
  have millis : s.wholeMillis < t.wholeMillis ↔ s.seconds < t.seconds ∨
      s.seconds = t.seconds ∧ s.nanos / 1000000 < t.nanos / 1000000 := by
    simp only [lt_iff, wholeMillis]
    omega
  have sDay := s.seconds_eq_day
  have tDay := t.seconds_eq_day
  have sTime := s.secondOfDay_eq
  have tTime := t.secondOfDay_eq
  have sBound := s.secondOfDay_lt
  have tBound := t.secondOfDay_lt
  have sMinute := s.minute_le
  have tMinute := t.minute_le
  rw [millis, day, day, ← second_lt_iff]
  omega

end Instant

end BuildCapture
