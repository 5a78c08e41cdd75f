import BuildCapture.Summary.Basic
import Mathlib.Algebra.Group.Int.Defs
import Mathlib.Algebra.Group.Nat.Defs
set_option autoImplicit false

namespace BuildCapture

/-- The tests that are neither skipped nor failed, below zero if there are fewer than none. -/
def TestReport.spare (r : TestReport) : Int :=
  r.totalCount.toInt - r.skipCount.toInt - r.failCount.toInt

namespace TestSummary

theorem toInt_passCount (r : TestReport) :
    (ofReport (some (.testResults r))).passCount.toInt = r.spare.bmod (2 ^ 32) := by
  show (r.totalCount - r.skipCount - r.failCount).toInt = _
  rw [Int32.toInt_sub, Int32.toInt_sub, Int.bmod_sub_bmod]
  rfl

theorem toInt_passCount_of_nonneg {r : TestReport} (total : 0 ≤ r.totalCount)
    (skipped : 0 ≤ r.skipCount) (failed : 0 ≤ r.failCount) :
    (ofReport (some (.testResults r))).passCount.toInt =
      if -2 ^ 31 ≤ r.spare then r.spare else r.spare + 2 ^ 32 := by
  rw [toInt_passCount]
  have total := Int32.le_iff_toInt_le.1 total
  have skipped := Int32.le_iff_toInt_le.1 skipped
  have failed := Int32.le_iff_toInt_le.1 failed
  have most := r.totalCount.toInt_lt
  have mostSkipped := r.skipCount.toInt_lt
  have mostFailed := r.failCount.toInt_lt
  have zero : (0 : Int32).toInt = 0 := rfl
  unfold TestReport.spare
  split
  case isTrue fits => exact Int.bmod_eq_of_le (by omega) (by omega)
  case isFalse beyond =>
    rw [← Int.add_bmod_right]
    exact Int.bmod_eq_of_le (by omega) (by omega)

/-- Of counts from zero on the number of passed tests is below zero exactly if more tests have been
skipped or failed than there are, but not by more than the least word; any further it is above zero,
by as much as the word has gone around. -/
theorem passCount_neg_iff {r : TestReport} (total : 0 ≤ r.totalCount) (skipped : 0 ≤ r.skipCount)
    (failed : 0 ≤ r.failCount) :
    ((ofReport (some (.testResults r))).passCount < 0 ↔
      r.totalCount.toInt < r.skipCount.toInt + r.failCount.toInt ∧
        r.skipCount.toInt + r.failCount.toInt ≤ r.totalCount.toInt + 2 ^ 31) ∧
    (r.totalCount.toInt + 2 ^ 31 < r.skipCount.toInt + r.failCount.toInt →
      0 < (ofReport (some (.testResults r))).passCount ∧
        (ofReport (some (.testResults r))).passCount.toInt =
          r.totalCount.toInt - (r.skipCount.toInt + r.failCount.toInt) + 2 ^ 32) := by
  have passed := toInt_passCount_of_nonneg total skipped failed
  have total := Int32.le_iff_toInt_le.1 total
  have mostSkipped := r.skipCount.toInt_lt
  have mostFailed := r.failCount.toInt_lt
  have zero : (0 : Int32).toInt = 0 := rfl
  rw [Int32.lt_iff_toInt_lt, Int32.lt_iff_toInt_lt, zero, passed]
  unfold TestReport.spare
  split
  case isTrue fits => omega
  case isFalse beyond => omega

/-- No tests, though two of them failed and as many as a count can tell were skipped. -/
def crowded : TestReport := ⟨0, 2147483647, 2, []⟩

/-- More tests were skipped or failed than there are, and the others passed all the same. -/
theorem crowded_passCount_pos :
    0 ≤ crowded.totalCount ∧ 0 ≤ crowded.skipCount ∧ 0 ≤ crowded.failCount ∧
    crowded.totalCount.toInt < crowded.skipCount.toInt + crowded.failCount.toInt ∧
    (ofReport (some (.testResults crowded))).passCount = 2147483647 := by decide

def nearlyCrowded : TestReport := { crowded with failCount := 1 }

theorem crowded_passCount_turns :
    0 ≤ nearlyCrowded.totalCount ∧ 0 ≤ nearlyCrowded.skipCount ∧ 0 ≤ nearlyCrowded.failCount ∧
    (ofReport (some (.testResults nearlyCrowded))).passCount < 0 ∧
    0 < (ofReport (some (.testResults crowded))).passCount := by
  have least := passCount_neg_iff (r := nearlyCrowded) (by decide) (by decide) (by decide)
  have beyond := passCount_neg_iff (r := crowded) (by decide) (by decide) (by decide)
  exact ⟨by decide, by decide, by decide, least.1.2 (by decide), (beyond.2 (by decide)).1⟩

end TestSummary

end BuildCapture
