import BuildCapture.Proofs.Build.RoundTrip
import BuildCapture.Proofs.Time.DefaultFormat
import BuildCapture.Proofs.Time.Elapsed
import BuildCapture.Snapshot.Capture
set_option autoImplicit false

/-!
The duration in a snapshot follows the clock, but for leap seconds. As long as the capture is not
before the start the duration is not negative, and later captures do not show shorter ones, except
where a leap second sets the time since the start back (`Snapshot.buildDuration_follows_clock`).
-/

namespace BuildCapture.Snapshot

theorem captureAt_buildDuration (mode : Mode) (r : Recording) (now : Instant) (timestamp : String) :
    (captureAt mode r now timestamp).1.buildDuration =
      .ofInt (now.millisSince r.build.startTime) := by
  cases mode <;> rfl

theorem toInt_buildDuration (mode : Mode) (r : Recording) (now : Instant) (timestamp : String) :
    (captureAt mode r now timestamp).1.buildDuration.toInt =
      now.millisSince r.build.startTime := by
  have bounds := now.millisSince_bounds r.build.startTime
  rw [captureAt_buildDuration]
  exact Int64.toInt_ofInt_of_le bounds.1 bounds.2

theorem buildDuration_neg_iff (mode : Mode) {r : Recording} {now : Instant} (timestamp : String)
    (started : r.build.startTime ≤ now) :
    (captureAt mode r now timestamp).1.buildDuration < 0 ↔
      r.build.startTime.secondOfDay = 86399 ∧ now.seconds = r.build.startTime.seconds + 1 ∧
        now.nanos + 1001000000 ≤ r.build.startTime.nanos := by
  rw [Int64.lt_iff_toInt_lt, toInt_buildDuration]
  exact Instant.millisSince_neg_iff started

theorem buildDuration_le (mode : Mode) {r : Recording} {t u : Instant} (timestamp : String)
    (less : t.nanosSince r.build.startTime ≤ u.nanosSince r.build.startTime) :
    (captureAt mode r t timestamp).1.buildDuration ≤
      (captureAt mode r u timestamp).1.buildDuration := by
  rw [Int64.le_iff_toInt_le, toInt_buildDuration, toInt_buildDuration]
  exact Instant.millisSince_le less

/-- A build whose timestamp has a printed form is captured at any two instants. If the first one is
not before the start, its duration is negative only in the second after a leap second that ends a
day, where the start is in that leap second and a millisecond or more further on in it. The duration
at the other instant, if that is not earlier, is not smaller, except on the occasions when the time
since the start is set back: there it is not greater. -/
theorem buildDuration_follows_clock (mode : Mode) (r : Recording) (format : DateFormat)
    (printed : (format.write r.build.scheduled).isSome) (t u : Instant) :
    ∃ s s' events events',
      capture mode r t format = some (s, events) ∧ capture mode r u format = some (s', events') ∧
      (r.build.startTime ≤ t → (s.buildDuration < 0 ↔
        r.build.startTime.secondOfDay = 86399 ∧ t.seconds = r.build.startTime.seconds + 1 ∧
          t.nanos + 1001000000 ≤ r.build.startTime.nanos)) ∧
      (t ≤ u →
        (¬ Instant.SetBack r.build.startTime t u → s.buildDuration ≤ s'.buildDuration) ∧
        (Instant.SetBack r.build.startTime t u → s'.buildDuration ≤ s.buildDuration)) := by
  obtain ⟨timestamp, written⟩ := Option.isSome_iff_exists.1 printed
  have captured (now : Instant) :
      capture mode r now format = some (captureAt mode r now timestamp) := by
    rw [capture, written, Option.map_some]
  refine ⟨_, _, _, _, captured t, captured u, buildDuration_neg_iff mode timestamp, ?_⟩
  intro order
  have less : u.nanosSince r.build.startTime < t.nanosSince r.build.startTime ↔
      Instant.SetBack r.build.startTime t u := Instant.nanosSince_lt_iff order
  constructor
  · intro kept
    exact buildDuration_le mode timestamp (Int.not_lt.1 (mt less.1 kept))
  · intro back
    exact buildDuration_le mode timestamp (Int.le_of_lt (less.2 back))

/-- The midnight that ends the leap second in which the promotion starts. -/
def midnight : Instant := ⟨1483228800, 0, by decide, by decide, by decide⟩

def minuteEnd : Instant := ⟨1483228859, 500000000, by decide, by decide, by decide⟩

/-- A leap second at the end of the minute after midnight. -/
def minuteLeap : Instant := ⟨1483228859, 1000000000, by decide, by decide, by decide⟩

/-- Leap seconds set durations back: below none at midnight, and half a second later from 59 seconds
to 58.5. -/
theorem promoted_set_back :
    Recording.promoted.build.startTime ≤ midnight ∧
    (capture .delegated Recording.promoted midnight default).map (·.1.buildDuration) =
      some (-500) ∧
    minuteEnd ≤ minuteLeap ∧
    (capture .delegated Recording.promoted minuteEnd default).map (·.1.buildDuration) =
      some 59000 ∧
    (capture .delegated Recording.promoted minuteLeap default).map (·.1.buildDuration) =
      some 58500 := by
  refine ⟨by decide, ?_, by decide, ?_, ?_⟩ <;> rw [capture, DateFormat.write_default] <;> rfl

/-- Below none at midnight, and not set back from there to the end of the minute. -/
theorem promoted_follows_clock :
    ((default : DateFormat).write Recording.promoted.build.scheduled).isSome ∧
    ¬ Instant.SetBack Recording.promoted.build.startTime midnight minuteEnd ∧
    ∃ s s' events events',
      capture .direct Recording.promoted midnight default = some (s, events) ∧
      capture .direct Recording.promoted minuteEnd default = some (s', events') ∧
      s.buildDuration < 0 ∧ s.buildDuration ≤ s'.buildDuration := by
  have printed : ((default : DateFormat).write Recording.promoted.build.scheduled).isSome := by
    rw [DateFormat.write_default]
    rfl
  have kept : ¬ Instant.SetBack Recording.promoted.build.startTime midnight minuteEnd :=
    mt (Instant.nanosSince_lt_iff (by decide)).2 (by decide)
  obtain ⟨s, s', events, events', captured, captured', negative, mono⟩ :=
    buildDuration_follows_clock .direct Recording.promoted default printed midnight minuteEnd
  exact ⟨printed, kept, s, s', events, events', captured, captured',
    (negative (by decide)).2 (by decide), (mono (by decide)).1 kept⟩

end BuildCapture.Snapshot
