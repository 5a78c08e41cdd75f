import BuildCapture.Proofs.WriteOnce
import BuildCapture.Snapshot.Basic
set_option autoImplicit false

/-!
Runs of operations on a snapshot. One operation does to every slot what a write-once step does, and
leaves all else alone; so what a run leaves in a snapshot is told from the run alone, whatever its
length and its builds.
-/

namespace BuildCapture

def Build.summary? {α : Type} (b : Build) (kind : ReportKind) (summary : Option Report → α) :
    Option α := (b.report? kind).map fun report => summary (some report)

theorem fillReport_slot {α : Type} (slot : Slot α) (kind : ReportKind)
    (summary : Option Report → α) (events : Option Report → List Event) (b : Build) :
    (fillReport slot kind summary events b).1 = ⟨slot.get.or (b.summary? kind summary)⟩ :=
  slot.fillWith_fst fun _ => b.summary? kind summary

theorem fillReport_events {α : Type} (slot : Slot α) (kind : ReportKind)
    (summary : Option Report → α) (events : Option Report → List Event) (b : Build) :
    (fillReport slot kind summary events b).2 =
      if !slot.isSet && (b.report? kind).isSome then
        events (b.report? kind) ++ [.reportCaptured kind b.fullName]
      else [] := by
  have filled := slot.filled_fillWith fun _ => b.summary? kind summary
  show (if (slot.fillWith fun _ => b.summary? kind summary).2 then _ else _) = _
  rw [filled, Slot.isSet, Slot.isSet, Slot.get_fillWith]
  cases slot.get <;> simp [Build.summary?]

namespace Snapshot

theorem updateResult_fst (s : Snapshot) (b : Build) :
    (s.updateResult b).1 = { s with
      result := ⟨s.result.get.or b.result⟩
      testResults := ⟨s.testResults.get.or (b.summary? .testResults .ofReport)⟩
      gitInfo := ⟨s.gitInfo.get.or (b.summary? .sourceControl .ofReport)⟩
      mavenInfo := ⟨s.mavenInfo.get.or (b.summary? .dependency .ofReport)⟩
      dockerInfo := ⟨s.dockerInfo.get.or (b.summary? .imageFingerprint .ofReport)⟩ } := by
  simp only [updateResult, Slot.fillWith_fst, fillReport_slot]

theorem updateResult_snd (s : Snapshot) (b : Build) :
    (s.updateResult b).2 =
      (if !s.result.isSet && b.result.isSome then [.resultCaptured s.fullDisplayName] else []) ++
        (fillReport s.testResults .testResults .ofReport (fun _ => []) b).2 ++
        (fillReport s.gitInfo .sourceControl .ofReport SourceSummary.events b).2 ++
        (fillReport s.mavenInfo .dependency .ofReport (fun _ => []) b).2 ++
        (fillReport s.dockerInfo .imageFingerprint .ofReport (fun _ => []) b).2 := by
  have filled := s.result.filled_fillWith fun _ => b.result
  rw [Slot.isSet, Slot.isSet, Slot.get_fillWith] at filled
  simp only [updateResult, filled]
  cases held : s.result.get <;> simp [Slot.isSet, held]

/-- What can be done to a snapshot once it is captured. -/
inductive Operation where
  | update (b : Build)
  | setResult (result : BuildResult)
  | setTestResults (tests : Option TestSummary)

namespace Operation

def apply (s : Snapshot) : Operation → Snapshot × List Event
  | .update b => s.updateResult b
  | .setResult result => (s.setResult result, [])
  | .setTestResults tests => (s.setTestResults tests, [])

def next (s : Snapshot) (op : Operation) : Snapshot := (op.apply s).1

def build? : Operation → Option Build
  | .update b => some b
  | .setResult _ | .setTestResults _ => none

def result? : Operation → Option BuildResult
  | .setResult result => some result
  | .update _ | .setTestResults _ => none

def tests? : Operation → Option (Option TestSummary)
  | .setTestResults tests => some tests
  | .update _ | .setResult _ => none

def offers {α : Type} (value : Build → Option α) (op : Operation) : Option α := op.build?.bind value

end Operation

/-- A run of operations: the snapshot it ends in, and everything it tells. -/
def run (s : Snapshot) : List Operation → Snapshot × List Event
  | [] => (s, [])
  | op :: rest =>
    let (s, events) := op.apply s
    let (s, later) := s.run rest
    (s, events ++ later)

def updates (ops : List Operation) : List Build := ops.filterMap Operation.build?

def firstSummary? {α : Type} (kind : ReportKind) (summary : Option Report → α)
    (builds : List Build) : Option α := builds.findSome? fun b => b.summary? kind summary

theorem run_fst (s : Snapshot) (ops : List Operation) :
    (s.run ops).1 = ops.foldl Operation.next s := by
  induction ops generalizing s with
  | nil => rfl
  | cons op ops ih => exact ih (op.next s)

theorem findSome?_offers {α : Type} (value : Build → Option α) (ops : List Operation) :
    ops.findSome? (Operation.offers value) = (updates ops).findSome? value := by
  induction ops with
  | nil => rfl
  | cons op ops ih =>
    cases op with
    | update b =>
      show _ = (b :: updates ops).findSome? value
      rw [List.findSome?_cons, List.findSome?_cons, ih]
      rfl
    | setResult result => exact ih
    | setTestResults tests => exact ih

theorem result_step : WriteOnce.Step (fun s : Snapshot => s.result.get) (fun s op => op.next s)
    (fun op => op.result?.map some) (Operation.offers Build.result) := by
  intro s op
  cases op with
  | update b => exact congrArg (fun s => s.result.get) (updateResult_fst s b)
  | setResult result => rfl
  | setTestResults tests => exact Option.or_none.symm

theorem testResults_step : WriteOnce.Step (fun s : Snapshot => s.testResults.get)
    (fun s op => op.next s) Operation.tests?
    (Operation.offers fun b => b.summary? .testResults .ofReport) := by
  intro s op
  cases op with
  | update b => exact congrArg (fun s => s.testResults.get) (updateResult_fst s b)
  | setResult result => exact Option.or_none.symm
  | setTestResults tests => rfl

theorem view_run {α : Type} (view : Snapshot → Option α) (value : Build → Option α)
    (updated : ∀ s b, view (s.updateResult b).1 = (view s).or (value b))
    (kept : ∀ s result tests,
      view (s.setResult result) = view s ∧ view (s.setTestResults tests) = view s)
    (s : Snapshot) (ops : List Operation) :
    view (s.run ops).1 = (view s).or ((updates ops).findSome? value) := by
  have step : WriteOnce.Step view (fun s op => op.next s) (fun _ => none)
      (Operation.offers value) := by
    intro s op
    cases op with
    | update b => exact updated s b
    | setResult result => exact (kept s result none).1.trans Option.or_none.symm
    | setTestResults tests => exact (kept s .success tests).2.trans Option.or_none.symm
  have ended := WriteOnce.view_foldl step s ops
  rw [WriteOnce.lastReset_of_no_reset _ (by simp), WriteOnce.sinceReset_of_no_reset _ (by simp),
    findSome?_offers, ← run_fst] at ended
  exact ended

theorem gitInfo_run (s : Snapshot) (ops : List Operation) :
    (s.run ops).1.gitInfo.get =
      s.gitInfo.get.or (firstSummary? .sourceControl .ofReport (updates ops)) :=
  view_run (fun s => s.gitInfo.get) (fun b => b.summary? .sourceControl .ofReport)
    (fun s b => congrArg (fun s => s.gitInfo.get) (updateResult_fst s b))
    (fun _ _ _ => ⟨rfl, rfl⟩) s ops

theorem mavenInfo_run (s : Snapshot) (ops : List Operation) :
    (s.run ops).1.mavenInfo.get =
      s.mavenInfo.get.or (firstSummary? .dependency .ofReport (updates ops)) :=
  view_run (fun s => s.mavenInfo.get) (fun b => b.summary? .dependency .ofReport)
    (fun s b => congrArg (fun s => s.mavenInfo.get) (updateResult_fst s b))
    (fun _ _ _ => ⟨rfl, rfl⟩) s ops

theorem dockerInfo_run (s : Snapshot) (ops : List Operation) :
    (s.run ops).1.dockerInfo.get =
      s.dockerInfo.get.or (firstSummary? .imageFingerprint .ofReport (updates ops)) :=
  view_run (fun s => s.dockerInfo.get) (fun b => b.summary? .imageFingerprint .ofReport)
    (fun s b => congrArg (fun s => s.dockerInfo.get) (updateResult_fst s b))
    (fun _ _ _ => ⟨rfl, rfl⟩) s ops

def lastResult? (ops : List Operation) : Option BuildResult :=
  ops.reverse.findSome? Operation.result?

theorem result_run (s : Snapshot) (ops : List Operation) :
    (s.run ops).1.result.get =
      (lastResult? ops).or (s.result.get.or ((updates ops).findSome? Build.result)) := by
  rw [run_fst]
  refine (WriteOnce.view_foldl result_step s ops).trans ?_
  have last : WriteOnce.lastReset (fun op => op.result?.map some) ops =
      (lastResult? ops).map some := List.map_findSome?.symm
  rw [last, findSome?_offers]
  cases h : lastResult? ops with
  | some result => simp
  | none =>
    have kept : ∀ op ∈ ops, op.result?.map some = none := by
      simpa [lastResult?, List.findSome?_eq_none_iff] using h
    rw [WriteOnce.sinceReset_of_no_reset _ kept]
    simp

theorem testResults_run (s : Snapshot) (ops : List Operation) :
    (s.run ops).1.testResults.get =
      ((WriteOnce.lastReset Operation.tests? ops).getD s.testResults.get).or
        (firstSummary? .testResults .ofReport
          (updates (WriteOnce.sinceReset Operation.tests? ops))) := by
  rw [run_fst]
  refine (WriteOnce.view_foldl testResults_step s ops).trans ?_
  rw [findSome?_offers, firstSummary?]

/-- The snapshot with its slots emptied, which leaves what no operation changes. -/
def frame (s : Snapshot) : Snapshot :=
  { s with result := {}, testResults := {}, gitInfo := {}, mavenInfo := {}, dockerInfo := {} }

theorem frame_next (s : Snapshot) (op : Operation) : (op.next s).frame = s.frame := by
  cases op with
  | update b =>
    show (s.updateResult b).1.frame = s.frame
    rw [updateResult_fst]
    rfl
  | setResult result => rfl
  | setTestResults tests => rfl

theorem frame_run (s : Snapshot) (ops : List Operation) : (s.run ops).1.frame = s.frame := by
  induction ops generalizing s with
  | nil => rfl
  | cons op ops ih => exact (ih (op.next s)).trans (frame_next s op)

theorem ext_frame {s t : Snapshot} (frames : s.frame = t.frame) (result : s.result = t.result)
    (tests : s.testResults = t.testResults) (git : s.gitInfo = t.gitInfo)
    (maven : s.mavenInfo = t.mavenInfo) (docker : s.dockerInfo = t.dockerInfo) : s = t := by
  cases s
  cases t
  simp_all [frame]

/-- First write wins over any run. The result is the last one set, else the one at the start, else
the first that a build of the run reports. The test summary is what the last overwriting left (the
one at the start, if there was none), else that of the first build since with such a report. The
other summaries are those at the start, else those of the first builds with such reports. Nothing
else changes. -/
theorem run_keeps_first_write (s : Snapshot) (ops : List Operation) :
    (s.run ops).1 = { s with
      result := ⟨(lastResult? ops).or (s.result.get.or ((updates ops).findSome? Build.result))⟩
      testResults := ⟨((WriteOnce.lastReset Operation.tests? ops).getD s.testResults.get).or
        (firstSummary? .testResults .ofReport
          (updates (WriteOnce.sinceReset Operation.tests? ops)))⟩
      gitInfo := ⟨s.gitInfo.get.or (firstSummary? .sourceControl .ofReport (updates ops))⟩
      mavenInfo := ⟨s.mavenInfo.get.or (firstSummary? .dependency .ofReport (updates ops))⟩
      dockerInfo := ⟨s.dockerInfo.get.or
        (firstSummary? .imageFingerprint .ofReport (updates ops))⟩ } :=
  ext_frame (frame_run s ops) (congrArg Slot.mk (result_run s ops))
    (congrArg Slot.mk (testResults_run s ops)) (congrArg Slot.mk (gitInfo_run s ops))
    (congrArg Slot.mk (mavenInfo_run s ops)) (congrArg Slot.mk (dockerInfo_run s ops))

end Snapshot

end BuildCapture
