import BuildCapture.Proofs.Time.Order
set_option autoImplicit false

/-!
How the time since a start goes on. Whether a leap second counts is told by the times of day alone:
that of the start counts at later times of day, and that of the other instant counts for nothing at
earlier ones. So there are three occasions on which a later instant is set back, and no others
(`Instant.nanosSince_lt_iff`). At an instant that is not before the start the time is below none
only if midnight has ended the leap second of the start (`Instant.nanosSince_lt_neg_iff`).
-/

namespace BuildCapture.Instant

/-- The nanoseconds from `s` to `t` by their seconds alone, without one for a leap second. -/
def plainSince (t s : Instant) : Int :=
  (t.seconds - s.seconds) * 1000000000 + (t.nanos - s.nanos)

/-- The seconds added for the leap second of the start, or taken off for that of the other
instant. -/
def leapSince (t start : Instant) : Int :=
  if start.secondOfDay < t.secondOfDay ∧ start.isLeapSecond then 1
  else if t.secondOfDay < start.secondOfDay ∧ t.isLeapSecond then -1
  else 0

theorem nanosSince_eq (t start : Instant) :
    t.nanosSince start = t.plainSince start + t.leapSince start * 1000000000 := by
  simp only [nanosSince, plainSince, leapSince, Bool.and_eq_true, decide_eq_true_eq]
  omega

theorem isLeapSecond_iff {t : Instant} : t.isLeapSecond ↔ 1000000000 ≤ t.nanos :=
  decide_eq_true_iff

theorem seconds_of_leap {t : Instant} (leap : t.isLeapSecond) : t.seconds % 60 = 59 := by
  have long := isLeapSecond_iff.1 leap
  have most := t.nanos_lt
  split at most
  case isTrue last => exact last
  case isFalse => omega

theorem secondOfDay_of_leap {t : Instant} (leap : t.isLeapSecond) : t.secondOfDay % 60 = 59 := by
  have last := seconds_of_leap leap
  simp only [secondOfDay]
  omega

theorem leapSince_cases (t start : Instant) :
    t.leapSince start = 1 ∧ start.secondOfDay < t.secondOfDay ∧ start.isLeapSecond ∨
    t.leapSince start = -1 ∧ t.secondOfDay < start.secondOfDay ∧ t.isLeapSecond ∨
    t.leapSince start = 0 ∧ ¬ (start.secondOfDay < t.secondOfDay ∧ start.isLeapSecond) ∧
      ¬ (t.secondOfDay < start.secondOfDay ∧ t.isLeapSecond) := by
  simp only [leapSince]
  split
  case isTrue added => exact .inl ⟨rfl, added⟩
  case isFalse notAdded =>
    split
    case isTrue taken => exact .inr (.inl ⟨rfl, taken⟩)
    case isFalse notTaken => exact .inr (.inr ⟨rfl, notAdded, notTaken⟩)

theorem leapSince_eq_one {t start : Instant} (later : start.secondOfDay < t.secondOfDay)
    (leap : start.isLeapSecond) : t.leapSince start = 1 :=
  if_pos ⟨later, leap⟩

theorem leapSince_eq_neg_one {t start : Instant} (earlier : t.secondOfDay < start.secondOfDay)
    (leap : t.isLeapSecond) : t.leapSince start = -1 := by
  rw [leapSince, if_neg (by omega), if_pos ⟨earlier, leap⟩]

theorem leapSince_nonneg {t start : Instant}
    (none : t.secondOfDay < start.secondOfDay → t.isLeapSecond = false) :
    0 ≤ t.leapSince start := by
  obtain ⟨eq, -⟩ | ⟨-, earlier, leap⟩ | ⟨eq, -⟩ := t.leapSince_cases start
  · omega
  · simp [none earlier] at leap
  · omega

theorem leapSince_nonpos {t start : Instant}
    (none : start.secondOfDay < t.secondOfDay → start.isLeapSecond = false) :
    t.leapSince start ≤ 0 := by
  obtain ⟨-, later, leap⟩ | ⟨eq, -⟩ | ⟨eq, -⟩ := t.leapSince_cases start
  · simp [none later] at leap
  · omega
  · omega

theorem leapSince_le_one (t start : Instant) : t.leapSince start ≤ 1 := by
  obtain ⟨eq, -⟩ | ⟨eq, -⟩ | ⟨eq, -⟩ := t.leapSince_cases start <;> omega

theorem secondOfDay_near {t u : Instant} (le : t.seconds ≤ u.seconds)
    (near : u.seconds < t.seconds + 86400) :
    (u.secondOfDay : Int) = t.secondOfDay + (u.seconds - t.seconds) ∨
      (u.secondOfDay : Int) = t.secondOfDay + (u.seconds - t.seconds) - 86400 := by
  have tDay := t.seconds_eq_day
  have uDay := u.seconds_eq_day
  have tTime := t.secondOfDay_lt
  have uTime := u.secondOfDay_lt
  omega

theorem secondOfDay_midnight {t u : Instant} (next : u.seconds = t.seconds + 1)
    (last : t.secondOfDay = 86399) : u.secondOfDay = 0 := by
  have near := secondOfDay_near (by omega : t.seconds ≤ u.seconds) (by omega)
  have uTime := u.secondOfDay_lt
  omega

theorem plainSince_neg_iff {t u : Instant} (order : t ≤ u) :
    u.plainSince t < 0 ↔ u.seconds = t.seconds + 1 ∧ u.nanos + 1000000000 < t.nanos := by
  rw [le_iff] at order
  have most := t.nanos_lt_two
  have most' := u.nanos_lt_two
  simp only [plainSince]
  omega

theorem neg_second_lt_plainSince {t u : Instant} (order : t ≤ u) :
    -1000000000 < u.plainSince t := by
  rw [le_iff] at order
  have most := t.nanos_lt_two
  simp only [plainSince]
  omega

theorem lt_three_of_plainSince {t u : Instant} (close : u.plainSince t < 1000000000) :
    u.seconds < t.seconds + 3 := by
  have most := t.nanos_lt_two
  simp only [plainSince] at close
  omega

/-- A leap second begins that does not count, at a time of day before that of the start. -/
structure LeapBegins (start t u : Instant) : Prop where
  same : u.seconds = t.seconds
  earlier : u.secondOfDay < start.secondOfDay
  before : t.isLeapSecond = false
  leap : u.isLeapSecond
  close : u.plainSince t < 1000000000

/-- A leap second ends that was counted as long as it was on. It is counted on, until the end of the
day, if the start is in a leap second at the same time of day. -/
structure LeapEnds (start t u : Instant) : Prop where
  back : u.plainSince t < 0
  notEarlier : start.secondOfDay ≤ t.secondOfDay
  last : start.isLeapSecond → start.secondOfDay = t.secondOfDay → t.secondOfDay = 86399

/-- A day ends, and the leap second of the start is not counted any more, until the next day comes
to the time of it. -/
structure DayEnds (start t u : Instant) : Prop where
  leap : start.isLeapSecond
  counted : start.secondOfDay < 86399
  lastSecond : t.secondOfDay = 86399
  ended : t.seconds < u.seconds
  close : u.plainSince t < 1000000000

/-- The occasions on which less time has gone by since the start at the later of two instants. -/
def SetBack (start t u : Instant) : Prop :=
  LeapBegins start t u ∨ LeapEnds start t u ∨ DayEnds start t u

theorem nanosSince_sub (start t u : Instant) :
    u.nanosSince start - t.nanosSince start =
      u.plainSince t + (u.leapSince start - t.leapSince start) * 1000000000 := by
  simp only [nanosSince_eq, plainSince]
  omega

theorem LeapBegins.nanosSince_lt {start t u : Instant} (h : LeapBegins start t u) :
    u.nanosSince start < t.nanosSince start := by
  have taken := leapSince_eq_neg_one h.earlier h.leap
  have kept : 0 ≤ t.leapSince start := leapSince_nonneg fun _ => h.before
  have apart := nanosSince_sub start t u
  have close := h.close
  omega

theorem LeapEnds.nanosSince_lt {start t u : Instant} (h : LeapEnds start t u) (order : t ≤ u) :
    u.nanosSince start < t.nanosSince start := by
  have next := ((plainSince_neg_iff order).1 h.back).1
  have kept : 0 ≤ t.leapSince start :=
    leapSince_nonneg fun earlier => absurd earlier (Nat.not_lt.2 h.notEarlier)
  have added : u.leapSince start ≤ t.leapSince start := by
    by_cases leap : start.isLeapSecond
    · obtain later | same := Nat.lt_or_eq_of_le h.notEarlier
      · have most := u.leapSince_le_one start
        rw [leapSince_eq_one later leap]
        exact most
      · have midnight : u.secondOfDay = 0 := secondOfDay_midnight next (h.last leap same)
        exact Int.le_trans (leapSince_nonpos (by simp [midnight])) kept
    · exact Int.le_trans (leapSince_nonpos fun _ => by simpa using leap) kept
  have apart := nanosSince_sub start t u
  have back := h.back
  omega

theorem DayEnds.nanosSince_lt {start t u : Instant} (h : DayEnds start t u) :
    u.nanosSince start < t.nanosSince start := by
  have added : t.leapSince start = 1 :=
    leapSince_eq_one (by rw [h.lastSecond]; exact h.counted) h.leap
  have early : u.secondOfDay ≤ start.secondOfDay := by
    have startPlace := secondOfDay_of_leap h.leap
    have soon := lt_three_of_plainSince h.close
    have ended := h.ended
    have near := secondOfDay_near (Int.le_of_lt ended) (by omega)
    have uTime := u.secondOfDay_lt
    have lastSecond := h.lastSecond
    omega
  have lost : u.leapSince start ≤ 0 :=
    leapSince_nonpos fun later => absurd later (Nat.not_lt.2 early)
  have apart := nanosSince_sub start t u
  have close := h.close
  omega

section
variable {start t u : Instant} (order : t ≤ u)
include order

theorem LeapEnds.of_leapSince_le (same : t.leapSince start ≤ u.leapSince start)
    (less : u.nanosSince start < t.nanosSince start) : LeapEnds start t u := by
  have apart := nanosSince_sub start t u
  have least := neg_second_lt_plainSince order
  -- No more leap seconds count at `u`, so it is the plain difference that goes back.
  have back : u.plainSince t < 0 := by omega
  obtain ⟨next, shorter⟩ := (plainSince_neg_iff order).1 back
  have tLeap : t.isLeapSecond := isLeapSecond_iff.2 (by omega)
  have uLeap : ¬ u.isLeapSecond := by
    rw [isLeapSecond_iff]
    have most := t.nanos_lt_two
    omega
  have near := secondOfDay_near (by omega : t.seconds ≤ u.seconds) (by omega)
  have startTime := start.secondOfDay_lt
  refine ⟨back, ?notEarlier, ?last⟩
  case notEarlier =>
    refine Nat.not_lt.1 fun earlier => ?_
    have taken := leapSince_eq_neg_one earlier tLeap
    have kept : 0 ≤ u.leapSince start := leapSince_nonneg fun _ => by simpa using uLeap
    omega
  case last =>
    intro startLeap tie
    refine Classical.byContradiction fun inDay => ?_
    have added : u.leapSince start = 1 := leapSince_eq_one (by omega) startLeap
    have none : t.leapSince start ≤ 0 := leapSince_nonpos fun later => by omega
    omega

theorem LeapBegins.of_leapSince (before : t.leapSince start = 0)
    (taken : u.secondOfDay < start.secondOfDay) (leap : u.isLeapSecond)
    (less : u.nanosSince start < t.nanosSince start) : LeapBegins start t u := by
  have close : u.plainSince t < 1000000000 := by
    have apart := nanosSince_sub start t u
    rw [leapSince_eq_neg_one taken leap] at apart
    omega
  -- In any later second `t` would be a leap second too, and a minute apart.
  have same : u.seconds = t.seconds := by
    refine Classical.byContradiction fun apart => ?_
    have soon := lt_three_of_plainSince close
    have uLong := isLeapSecond_iff.1 leap
    rw [le_iff] at order
    have tLeap : t.isLeapSecond := by
      rw [isLeapSecond_iff]
      simp only [plainSince] at close
      omega
    have tPlace := seconds_of_leap tLeap
    have uPlace := seconds_of_leap leap
    omega
  refine ⟨same, taken, ?before, leap, close⟩
  case before =>
    refine Bool.eq_false_iff.2 fun tLeap => ?_
    have sameTime : t.secondOfDay = u.secondOfDay := by rw [secondOfDay, secondOfDay, same]
    have taken := leapSince_eq_neg_one (sameTime ▸ taken) tLeap
    omega

theorem DayEnds.of_leapSince (later : start.secondOfDay < t.secondOfDay)
    (startLeap : start.isLeapSecond) (lost : u.leapSince start = 0)
    (less : u.nanosSince start < t.nanosSince start) : DayEnds start t u := by
  have close : u.plainSince t < 1000000000 := by
    have apart := nanosSince_sub start t u
    rw [leapSince_eq_one later startLeap, lost] at apart
    omega
  -- The leap second of the start counts no more, so the time of day has started again.
  have early : u.secondOfDay ≤ start.secondOfDay := by
    refine Nat.not_lt.1 fun later => ?_
    have added := leapSince_eq_one later startLeap
    omega
  have soon := lt_three_of_plainSince close
  have tTime := t.secondOfDay_lt
  have uTime := u.secondOfDay_lt
  rw [le_iff] at order
  have near := secondOfDay_near (by omega : t.seconds ≤ u.seconds) (by omega)
  have ended : t.seconds < u.seconds := by omega
  have lastSecond : t.secondOfDay = 86399 := by
    refine Classical.byContradiction fun sooner => ?_
    have tLeap : t.isLeapSecond := by
      rw [isLeapSecond_iff]
      simp only [plainSince] at close
      omega
    have tPlace := secondOfDay_of_leap tLeap
    omega
  exact ⟨startLeap, by omega, lastSecond, ended, close⟩

theorem nanosSince_le_of_leapSince (later : start.secondOfDay < t.secondOfDay)
    (startLeap : start.isLeapSecond) (earlier : u.secondOfDay < start.secondOfDay)
    (leap : u.isLeapSecond) : t.nanosSince start ≤ u.nanosSince start := by
  have apart := nanosSince_sub start t u
  rw [leapSince_eq_one later startLeap, leapSince_eq_neg_one earlier leap] at apart
  have place := secondOfDay_of_leap leap
  have most := t.nanos_lt_two
  have tDay := t.seconds_eq_day
  have uDay := u.seconds_eq_day
  have tTime := t.secondOfDay_lt
  rw [le_iff] at order
  have days : t.day < u.day := by omega
  have far : t.seconds + 60 ≤ u.seconds := by omega
  simp only [plainSince] at apart
  omega

theorem nanosSince_lt_iff : u.nanosSince start < t.nanosSince start ↔ SetBack start t u := by
  constructor
  · intro less
    by_cases counted : t.leapSince start ≤ u.leapSince start
    · exact .inr (.inl (.of_leapSince_le order counted less))
    obtain ⟨uAdded, -⟩ | ⟨-, earlier, leap⟩ | ⟨uZero, -⟩ := u.leapSince_cases start
    · exact absurd (t.leapSince_le_one start) (by omega)
    · obtain ⟨-, later, startLeap⟩ | ⟨tTaken, -⟩ | ⟨tZero, -⟩ := t.leapSince_cases start
      · have far := nanosSince_le_of_leapSince order later startLeap earlier leap
        omega
      · have taken := leapSince_eq_neg_one earlier leap
        omega
      · exact .inl (.of_leapSince order tZero earlier leap less)
    · obtain ⟨-, later, startLeap⟩ | ⟨tTaken, -⟩ | ⟨tZero, -⟩ := t.leapSince_cases start
      · exact .inr (.inr (.of_leapSince order later startLeap uZero less))
      · omega
      · omega
  · rintro (begins | ends | ends)
    · exact begins.nanosSince_lt
    · exact ends.nanosSince_lt order
    · exact ends.nanosSince_lt

end

@[simp] theorem nanosSince_self (t : Instant) : t.nanosSince t = 0 := by
  simp [nanosSince]

theorem setBack_self_iff {start t : Instant} (order : start ≤ t) :
    SetBack start start t ↔ t.plainSince start < 0 ∧ start.secondOfDay = 86399 := by
  constructor
  · rintro (begins | ends | ends)
    · have earlier := begins.earlier
      rw [secondOfDay, secondOfDay, begins.same] at earlier
      omega
    · have long := ((plainSince_neg_iff order).1 ends.back).2
      exact ⟨ends.back, ends.last (isLeapSecond_iff.2 (by omega)) rfl⟩
    · exact absurd ends.lastSecond (Nat.ne_of_lt ends.counted)
  · rintro ⟨back, last⟩
    exact .inr (.inl ⟨back, Nat.le_refl _, fun _ _ => last⟩)

theorem nanosSince_eq_plainSince {start t : Instant} (order : start ≤ t)
    (back : t.plainSince start < 0) (last : start.secondOfDay = 86399) :
    t.nanosSince start = t.plainSince start := by
  obtain ⟨next, long⟩ := (plainSince_neg_iff order).1 back
  have midnight := secondOfDay_midnight next last
  have most := start.nanos_lt_two
  have kept : 0 ≤ t.leapSince start := leapSince_nonneg fun _ => decide_eq_false (by omega)
  have none : t.leapSince start ≤ 0 := leapSince_nonpos fun later => by omega
  rw [nanosSince_eq]
  omega

theorem nanosSince_lt_neg_iff {start t : Instant} (order : start ≤ t) (n : Nat) :
    t.nanosSince start < -n ↔ t.plainSince start < -n ∧ start.secondOfDay = 86399 := by
  have negative : t.nanosSince start < start.nanosSince start ↔ SetBack start start t :=
    nanosSince_lt_iff order
  rw [nanosSince_self, setBack_self_iff order] at negative
  constructor
  · intro less
    obtain ⟨back, last⟩ := negative.1 (by omega)
    exact ⟨nanosSince_eq_plainSince order back last ▸ less, last⟩
  · rintro ⟨back, last⟩
    rw [nanosSince_eq_plainSince order (by omega) last]
    exact back

theorem millisSince_le {start t u : Instant} (h : t.nanosSince start ≤ u.nanosSince start) :
    t.millisSince start ≤ u.millisSince start :=
  Int.tdiv_le_tdiv (by decide) h

theorem millisSince_lt_zero {t start : Instant} :
    t.millisSince start < 0 ↔ t.nanosSince start < -999999 := by
  have none : (-999999 : Int).tdiv 1000000 = 0 := by decide
  have one : (-1000000 : Int).tdiv 1000000 = -1 := by decide
  constructor
  · intro negative
    refine Int.not_le.1 fun small => ?_
    have kept : (-999999 : Int).tdiv 1000000 ≤ t.millisSince start :=
      Int.tdiv_le_tdiv (by decide) small
    omega
  · intro less
    have whole : t.millisSince start ≤ (-1000000 : Int).tdiv 1000000 :=
      Int.tdiv_le_tdiv (by decide) (by omega)
    omega

theorem millisSince_neg_iff {start t : Instant} (order : start ≤ t) :
    t.millisSince start < 0 ↔ start.secondOfDay = 86399 ∧ t.seconds = start.seconds + 1 ∧
      t.nanos + 1001000000 ≤ start.nanos := by
  have back : t.nanosSince start < -999999 ↔
      t.plainSince start < -999999 ∧ start.secondOfDay = 86399 :=
    nanosSince_lt_neg_iff order 999999
  have most := start.nanos_lt_two
  rw [millisSince_lt_zero, back]
  rw [le_iff] at order
  simp only [plainSince]
  omega

theorem millisSince_bounds (t start : Instant) :
    -9223372036854775808 ≤ t.millisSince start ∧ t.millisSince start < 9223372036854775808 := by
  have most := t.nanos_lt_two
  have most' := start.nanos_lt_two
  have first : -8334601228800 ≤ t.seconds := t.first_le
  have first' : -8334601228800 ≤ start.seconds := start.first_le
  have last : t.seconds ≤ 8210266876799 := t.le_last
  have last' : start.seconds ≤ 8210266876799 := start.le_last
  have small : -20000000000000 * 1000000000 ≤ t.nanosSince start ∧
      t.nanosSince start ≤ 20000000000000 * 1000000000 := by
    have leap := t.leapSince_cases start
    rw [nanosSince_eq, plainSince]
    omega
  constructor
  · exact Int.le_trans (by decide) (Int.tdiv_le_tdiv (by decide) small.1)
  · exact Int.lt_of_le_of_lt (Int.tdiv_le_tdiv (by decide) small.2) (by decide)

end BuildCapture.Instant
