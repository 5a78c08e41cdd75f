import BuildCapture.Proofs.Snapshot.Enrichment
import BuildCapture.Snapshot.Capture
import Mathlib.Algebra.GroupWithZero.Nat
set_option autoImplicit false

/-!
What enrichment tells. An update tells of the slots that it fills, in their order, and of nothing
else (`Snapshot.updateResult_events`), so what it tells can be read off the snapshot before it and
after it. Over a run of updates the lines of each sort are as many as the slots of that sort that
went from empty to set: one or none.
-/

namespace BuildCapture

namespace Event

def isResult : Event → Bool
  | .resultCaptured _ => true
  | _ => false

def isReport (kind : ReportKind) : Event → Bool
  | .reportCaptured found _ => found = kind
  | _ => false

def isRevision : Event → Bool
  | .revisionMissing => true
  | _ => false

theorem line_resultCaptured (snapshot : String) :
    (resultCaptured snapshot).line = "DEBUG Captured result of " ++ snapshot := by
  show "DEBUG " ++ ("Captured result of " ++ snapshot) = _
  rw [← String.append_assoc]
  rfl

theorem line_reportCaptured (kind : ReportKind) (build : String) :
    (reportCaptured kind build).line =
      "DEBUG Captured " ++ kind.title ++ " report of " ++ build := by
  show "DEBUG " ++ ("Captured " ++ kind.title ++ " report of " ++ build) = _
  simp only [← String.append_assoc]
  rfl

theorem line_revisionMissing :
    revisionMissing.line = "DEBUG No revision recorded for the last git build" := rfl

end Event

namespace Snapshot

def hasReport (s : Snapshot) : ReportKind → Bool
  | .testResults => s.testResults.isSet
  | .sourceControl => s.gitInfo.isSet
  | .dependency => s.mavenInfo.isSet
  | .imageFingerprint => s.dockerInfo.isSet

/-- Whether there is a summary of the sources, and it tells no revision. -/
def lacksRevision (s : Snapshot) : Bool := s.gitInfo.get.any fun source => source.revision.isNone

def resultEvents (s s' : Snapshot) : List Event :=
  if !s.result.isSet && s'.result.isSet then [.resultCaptured s.fullDisplayName] else []

/-- What an update of a snapshot to another one has to tell of the reports of a kind, which come
from the build of the given name. -/
def reportEvents (s s' : Snapshot) (build : String) (kind : ReportKind) : List Event :=
  if !s.hasReport kind && s'.hasReport kind then
    (if kind = .sourceControl ∧ s'.lacksRevision then [.revisionMissing] else []) ++
      [.reportCaptured kind build]
  else []

theorem kind?_of_report? {b : Build} {kind : ReportKind} {r : Report}
    (h : b.report? kind = some r) : r.kind? = some kind := by
  simpa using List.find?_some h

theorem events_of_report? {b : Build} {r : Report} (h : b.report? .sourceControl = some r) :
    SourceSummary.events (some r) =
      if (SourceSummary.ofReport (some r)).revision.isNone then [.revisionMissing] else [] := by
  have kind := kind?_of_report? h
  cases r with
  | sourceControl r => rfl
  | testResults r => cases kind
  | dependency r => cases kind
  | imageFingerprint r => cases kind
  | unknown => cases kind

section
variable (s : Snapshot) (b : Build)

theorem hasReport_updateResult (kind : ReportKind) :
    (s.updateResult b).1.hasReport kind = (s.hasReport kind || (b.report? kind).isSome) := by
  rw [updateResult_fst]
  cases kind <;> simp [hasReport, Slot.isSet, Build.summary?]

theorem isSet_result_updateResult :
    (s.updateResult b).1.result.isSet = (s.result.isSet || b.result.isSome) := by
  rw [updateResult_fst]
  simp [Slot.isSet]

theorem lacksRevision_of_empty (empty : s.gitInfo.isSet = false) : s.lacksRevision = false := by
  have none : s.gitInfo.get = none := by simpa [Slot.isSet] using empty
  rw [lacksRevision, none]
  rfl

theorem lacksRevision_updateResult :
    (s.updateResult b).1.lacksRevision = (s.lacksRevision || (!s.gitInfo.isSet &&
      (b.report? .sourceControl).any fun r =>
        (SourceSummary.ofReport (some r)).revision.isNone)) := by
  rw [updateResult_fst]
  simp only [lacksRevision, Slot.isSet]
  cases s.gitInfo.get <;> simp [Build.summary?, Option.any_map]

theorem reportEvents_of_ne (kind : ReportKind) (other : kind ≠ .sourceControl) :
    s.reportEvents (s.updateResult b).1 b.fullName kind =
      if !s.hasReport kind && (b.report? kind).isSome then [.reportCaptured kind b.fullName]
      else [] := by
  rw [reportEvents, hasReport_updateResult]
  cases s.hasReport kind <;> simp [other]

theorem reportEvents_sourceControl :
    s.reportEvents (s.updateResult b).1 b.fullName .sourceControl =
      (fillReport s.gitInfo .sourceControl .ofReport SourceSummary.events b).2 := by
  rw [fillReport_events, reportEvents, hasReport_updateResult, lacksRevision_updateResult]
  cases held : s.gitInfo.isSet with
  | true => simp [hasReport, held]
  | false =>
    cases found : b.report? .sourceControl with
    | none => simp [hasReport, held]
    | some r =>
      rw [events_of_report? found]
      simp [hasReport, held, s.lacksRevision_of_empty held]

/-- An update tells of the slots that it has filled, and of nothing else. -/
theorem updateResult_events :
    (s.updateResult b).2 = s.resultEvents (s.updateResult b).1 ++
      ReportKind.all.flatMap (s.reportEvents (s.updateResult b).1 b.fullName) := by
  have result : s.resultEvents (s.updateResult b).1 =
      if !s.result.isSet && b.result.isSome then [.resultCaptured s.fullDisplayName] else [] := by
    rw [resultEvents, isSet_result_updateResult]
    cases s.result.isSet <;> simp
  rw [updateResult_snd, ← result, ← reportEvents_sourceControl, fillReport_events,
    fillReport_events, fillReport_events]
  simp only [ReportKind.all, List.flatMap_cons, List.flatMap_nil, List.append_nil,
    List.append_assoc]
  rw [reportEvents_of_ne s b .testResults (by decide),
    reportEvents_of_ne s b .dependency (by decide),
    reportEvents_of_ne s b .imageFingerprint (by decide)]
  rfl

end

theorem countP_resultEvents (told : Event → Bool) (s s' : Snapshot) :
    (s.resultEvents s').countP told =
      if told (.resultCaptured s.fullDisplayName) then (!s.result.isSet && s'.result.isSet).toNat
      else 0 := by
  unfold resultEvents
  cases !s.result.isSet && s'.result.isSet <;> simp [List.countP_singleton]

theorem countP_reportEvents (told : Event → Bool) (s s' : Snapshot) (build : String)
    (kind : ReportKind) :
    (s.reportEvents s' build kind).countP told =
      if !s.hasReport kind && s'.hasReport kind then
        (if (kind = .sourceControl ∧ s'.lacksRevision) ∧ told .revisionMissing then 1 else 0) +
          if told (.reportCaptured kind build) then 1 else 0
      else 0 := by
  unfold reportEvents
  split
  case isTrue =>
    rw [List.countP_append, List.countP_singleton]
    split <;> simp [*]
  case isFalse => rfl

theorem countP_updateResult (told : Event → Bool) (s : Snapshot) (b : Build) :
    (s.updateResult b).2.countP told =
      (s.resultEvents (s.updateResult b).1).countP told +
        (ReportKind.all.map fun kind =>
          (s.reportEvents (s.updateResult b).1 b.fullName kind).countP told).sum := by
  rw [updateResult_events, List.countP_append, List.countP_flatMap]
  rfl

theorem countP_isResult (s : Snapshot) (b : Build) :
    (s.updateResult b).2.countP Event.isResult + s.result.isSet.toNat =
      (s.updateResult b).1.result.isSet.toNat := by
  rw [countP_updateResult, countP_resultEvents, isSet_result_updateResult]
  simp only [countP_reportEvents, Event.isResult, ReportKind.all]
  cases s.result.isSet <;> cases b.result.isSome <;> simp

theorem sum_turns (kind : ReportKind) (n : Nat) :
    (ReportKind.all.map fun turn => if turn = kind then n else 0).sum = n := by
  cases kind <;> simp [ReportKind.all]

theorem countP_isReport (kind : ReportKind) (s : Snapshot) (b : Build) :
    (s.updateResult b).2.countP (Event.isReport kind) + (s.hasReport kind).toNat =
      ((s.updateResult b).1.hasReport kind).toNat := by
  have turn (other : ReportKind) :
      (s.reportEvents (s.updateResult b).1 b.fullName other).countP (Event.isReport kind) =
        if other = kind then (!s.hasReport kind && (b.report? kind).isSome).toNat else 0 := by
    rw [countP_reportEvents, hasReport_updateResult]
    by_cases own : other = kind
    · subst own
      cases s.hasReport other <;> cases (b.report? other).isSome <;> simp [Event.isReport]
    · simp [Event.isReport, own]
  rw [countP_updateResult, countP_resultEvents, hasReport_updateResult]
  simp only [turn, sum_turns]
  cases s.hasReport kind <;> cases (b.report? kind).isSome <;> rfl

theorem countP_isRevision (s : Snapshot) (b : Build) :
    (s.updateResult b).2.countP Event.isRevision + s.lacksRevision.toNat =
      (s.updateResult b).1.lacksRevision.toNat := by
  have turn (other : ReportKind) :
      (s.reportEvents (s.updateResult b).1 b.fullName other).countP Event.isRevision =
        if other = .sourceControl then
          (!s.lacksRevision && (s.updateResult b).1.lacksRevision).toNat else 0 := by
    rw [countP_reportEvents, hasReport_updateResult]
    by_cases own : other = .sourceControl
    · subst own
      rw [lacksRevision_updateResult]
      cases held : s.gitInfo.isSet with
      | true => simp [hasReport, held]
      | false =>
        rw [s.lacksRevision_of_empty held]
        cases b.report? .sourceControl with
        | none => simp [hasReport, held]
        | some r =>
          rw [Option.any_some]
          cases (SourceSummary.ofReport (some r)).revision <;>
            simp [hasReport, held, Event.isRevision]
    · simp [Event.isRevision, own]
  rw [countP_updateResult, countP_resultEvents]
  simp only [turn, sum_turns, lacksRevision_updateResult]
  cases s.lacksRevision <;> simp [Event.isRevision]

/-- A run tells of one sort once if it sets the flag that every update telling of it sets. -/
theorem countP_run {told : Event → Bool} {flag : Snapshot → Bool}
    (step : ∀ s b, (s.updateResult b).2.countP told + (flag s).toNat =
      (flag (s.updateResult b).1).toNat) (s : Snapshot) (bs : List Build) :
    (s.run (bs.map .update)).2.countP told =
      (!flag s && flag (s.run (bs.map .update)).1).toNat := by
  have ledger : (s.run (bs.map .update)).2.countP told + (flag s).toNat =
      (flag (s.run (bs.map .update)).1).toNat := by
    induction bs generalizing s with
    | nil => exact Nat.zero_add _
    | cons b bs ih =>
      show ((s.updateResult b).2 ++ ((s.updateResult b).1.run (bs.map .update)).2).countP told +
        (flag s).toNat = (flag ((s.updateResult b).1.run (bs.map .update)).1).toNat
      rw [List.countP_append, ← ih, ← step s b]
      omega
  revert ledger
  cases flag s <;> cases flag (s.run (bs.map .update)).1 <;> simp

/-- An update writes a line for each slot that it fills: first for the result, then for the reports
in the order of their kinds, where the line of the sources follows one that says so if they are told
without a revision. It writes no other line, and none if it changes nothing. So over a run of
updates there is one line for each slot that the run fills, one for a missing revision if the
summary of the sources that it takes has none, and no line of these sorts otherwise. -/
theorem updateResult_lines (s : Snapshot) (b : Build) (bs : List Build) :
    (s.updateResult b).2.map Event.line =
      (if !s.result.isSet && (s.updateResult b).1.result.isSet then
        ["DEBUG Captured result of " ++ s.fullDisplayName] else []) ++
      ([.testResults, .sourceControl, .dependency, .imageFingerprint].flatMap
        fun kind : ReportKind =>
          if !s.hasReport kind && (s.updateResult b).1.hasReport kind then
            (if kind = .sourceControl ∧ (s.updateResult b).1.lacksRevision then
              ["DEBUG No revision recorded for the last git build"] else []) ++
            ["DEBUG Captured " ++ kind.title ++ " report of " ++ b.fullName]
          else []) ∧
    ((s.updateResult b).1 = s → (s.updateResult b).2 = []) ∧
    (s.run (bs.map .update)).2.countP Event.isResult =
      (!s.result.isSet && (s.run (bs.map .update)).1.result.isSet).toNat ∧
    (∀ kind, (s.run (bs.map .update)).2.countP (Event.isReport kind) =
      (!s.hasReport kind && (s.run (bs.map .update)).1.hasReport kind).toNat) ∧
    (s.run (bs.map .update)).2.countP Event.isRevision =
      (!s.lacksRevision && (s.run (bs.map .update)).1.lacksRevision).toNat := by
  refine ⟨?lines, ?unchanged, countP_run countP_isResult s bs,
    fun kind => countP_run (countP_isReport kind) s bs, countP_run countP_isRevision s bs⟩
  case lines =>
    rw [updateResult_events, List.map_append, List.map_flatMap]
    refine congr_arg₂ (· ++ ·) ?_ (congr_arg₂ List.flatMap ?_ rfl)
    · unfold resultEvents
      split <;> simp [Event.line_resultCaptured]
    · funext kind
      unfold reportEvents
      split
      · split <;> simp [Event.line_reportCaptured, Event.line_revisionMissing]
      · rfl
  case unchanged =>
    intro same
    rw [updateResult_events, same]
    simp [resultEvents, reportEvents]

/-- A finished build whose sources were recorded without a revision. -/
def checkedOut : Build where
  id := "5"
  project := ⟨"checkout", "ops/checkout"⟩
  fullDisplayName := some "ops/checkout #5"
  number := 5
  startTime := ⟨1490000060, 0, by decide, by decide, by decide⟩
  result := some .success
  actions := [.unknown, .sourceControl ⟨some "git", ∅, none⟩]

def checkedOutSnapshot : Snapshot :=
  ((bare checkedOut checkedOut.startTime "").updateResult checkedOut).1

/-- The capture tells all that there is, and an update to the same build has nothing to add. -/
theorem checkedOut_lines :
    ((bare checkedOut checkedOut.startTime "").updateResult checkedOut).2.map Event.line =
      ["DEBUG Captured result of ops/checkout #5",
        "DEBUG No revision recorded for the last git build",
        "DEBUG Captured SourceControl report of ops/checkout #5"] ∧
    (checkedOutSnapshot.updateResult checkedOut).1 = checkedOutSnapshot ∧
    (checkedOutSnapshot.updateResult checkedOut).2 = [] := by
  have captured := (updateResult_lines (bare checkedOut checkedOut.startTime "") checkedOut []).1
  have same : (checkedOutSnapshot.updateResult checkedOut).1 = checkedOutSnapshot := by decide
  exact ⟨captured.trans (by decide), same,
    (updateResult_lines checkedOutSnapshot checkedOut []).2.1 same⟩

end Snapshot

end BuildCapture
