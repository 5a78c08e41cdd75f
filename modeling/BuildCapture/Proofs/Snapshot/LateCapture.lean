import BuildCapture.Proofs.Snapshot.Enrichment
import BuildCapture.Snapshot.Capture
set_option autoImplicit false

/-!
It does not matter when a build is captured. A snapshot taken early and enriched as the build goes
on ends up as the one taken at the end, provided that the build only gains: what it has once shown
of its result and its reports it goes on showing.
-/

namespace BuildCapture

/-- The second build is the first one later on: the result and the reports that the first one shows
are kept, and nothing else has changed. -/
structure Build.ExtendedBy (b b' : Build) : Prop where
  result : ∀ result, b.result = some result → b'.result = some result
  reports : ∀ kind report, b.report? kind = some report → b'.report? kind = some report
  others : b' = { b with result := b'.result, actions := b'.actions }

structure Recording.ExtendedBy (r r' : Recording) : Prop where
  build : r.build.ExtendedBy r'.build
  triggers : r'.triggers = r.triggers

namespace Build.ExtendedBy

variable {b b' b'' : Build}

theorem refl (b : Build) : b.ExtendedBy b := ⟨fun _ h => h, fun _ _ h => h, rfl⟩

theorem trans (h : b.ExtendedBy b') (h' : b'.ExtendedBy b'') : b.ExtendedBy b'' where
  result result shown := h'.result result (h.result result shown)
  reports kind report shown := h'.reports kind report (h.reports kind report shown)
  others := by rw [h'.others, h.others]

theorem summary? {α : Type} (h : b.ExtendedBy b') (kind : ReportKind) (summary : Option Report → α)
    (a : α) (shown : b.summary? kind summary = some a) : b'.summary? kind summary = some a := by
  obtain ⟨report, found, rfl⟩ := Option.map_eq_some_iff.1 shown
  rw [Build.summary?, h.reports kind report found]
  rfl

end Build.ExtendedBy

namespace Recording.ExtendedBy

variable {r r' r'' : Recording}

theorem refl (r : Recording) : r.ExtendedBy r := ⟨.refl r.build, rfl⟩

theorem trans (h : r.ExtendedBy r') (h' : r'.ExtendedBy r'') : r.ExtendedBy r'' :=
  ⟨h.build.trans h'.build, h'.triggers.trans h.triggers⟩

theorem getLast_of_chain {r : Recording} {rs : List Recording}
    (chain : (r :: rs).IsChain Recording.ExtendedBy) :
    ∀ x ∈ r :: rs, x.ExtendedBy ((r :: rs).getLast (List.cons_ne_nil r rs)) := by
  induction rs generalizing r with
  | nil =>
    intro x hx
    obtain rfl := List.mem_singleton.1 hx
    exact refl x
  | cons next rs ih =>
    obtain ⟨first, later⟩ := List.isChain_cons_cons.1 chain
    rw [List.getLast_cons (List.cons_ne_nil next rs)]
    intro x hx
    rcases List.mem_cons.1 hx with rfl | hx
    · exact first.trans (ih later next List.mem_cons_self)
    · exact ih later x hx

end Recording.ExtendedBy

/-- The first thing that any of the builds offers is what the last one offers, if an offer once made
stands until the last. -/
theorem or_findSome?_of_kept {α : Type} {value : Build → Option α} {b last : Build}
    {bs : List Build} (kept : ∀ x ∈ b :: bs, ∀ a, value x = some a → value last = some a)
    (mem : last ∈ b :: bs) : (value b).or (bs.findSome? value) = value last := by
  have first : (value b).or (bs.findSome? value) = (b :: bs).findSome? value := by
    rw [List.findSome?_cons]
    cases value b <;> rfl
  rw [first]
  cases found : (b :: bs).findSome? value with
  | none => exact (List.findSome?_eq_none_iff.1 found last mem).symm
  | some a =>
    obtain ⟨x, hx, offered⟩ := List.exists_of_findSome?_eq_some found
    exact (kept x hx a offered).symm

namespace Snapshot

section
variable (bs : List Build)

theorem updates_map_update : updates (bs.map .update) = bs := by
  simp [updates, List.filterMap_map, Function.comp_def, Operation.build?]

theorem lastResult?_map_update : lastResult? (bs.map .update) = none := by
  simp [lastResult?, List.findSome?_eq_none_iff, Operation.result?]

theorem tests?_map_update : ∀ op ∈ bs.map Operation.update, op.tests? = none := by
  simp [Operation.tests?]

end

/-- The snapshot with every slot holding what a build offers to it. -/
def withOffers (s : Snapshot) (b : Build) : Snapshot :=
  { s with
    result := ⟨b.result⟩
    testResults := ⟨b.summary? .testResults .ofReport⟩
    gitInfo := ⟨b.summary? .sourceControl .ofReport⟩
    mavenInfo := ⟨b.summary? .dependency .ofReport⟩
    dockerInfo := ⟨b.summary? .imageFingerprint .ofReport⟩ }

/-- Updates make the slots hold what the last build offers, if the builds only gain. The builds may
come in any order and more than once. -/
theorem run_updates_withOffers (s : Snapshot) {b last : Build} {bs : List Build}
    (kept : ∀ x ∈ b :: bs, x.ExtendedBy last) (mem : last ∈ b :: bs) :
    ((s.withOffers b).run (bs.map .update)).1 = s.withOffers last := by
  have offered {α : Type} (kind : ReportKind) (summary : Option Report → α) :
      (b.summary? kind summary).or (firstSummary? kind summary bs) = last.summary? kind summary :=
    or_findSome?_of_kept (fun x hx => (kept x hx).summary? kind summary) mem
  refine ext_frame (frame_run _ _) ?result ?tests ?git ?maven ?docker <;> refine congrArg Slot.mk ?_
  case result =>
    rw [result_run, lastResult?_map_update, updates_map_update]
    exact or_findSome?_of_kept (fun x hx => (kept x hx).result) mem
  case tests =>
    have kept := tests?_map_update bs
    rw [testResults_run, WriteOnce.lastReset_of_no_reset _ kept,
      WriteOnce.sinceReset_of_no_reset _ kept, updates_map_update]
    exact offered .testResults TestSummary.ofReport
  case git =>
    rw [gitInfo_run, updates_map_update]
    exact offered .sourceControl SourceSummary.ofReport
  case maven =>
    rw [mavenInfo_run, updates_map_update]
    exact offered .dependency DependencySummary.ofReport
  case docker =>
    rw [dockerInfo_run, updates_map_update]
    exact offered .imageFingerprint ImageSummary.ofReport

theorem captureAt_fst (mode : Mode) (r : Recording) (now : Instant) (timestamp : String) :
    (captureAt mode r now timestamp).1 =
      (captureAt mode r now timestamp).1.frame.withOffers r.build := by
  cases mode <;> rfl

/-- What no operation changes is captured alike from a build and from what it comes to. -/
theorem frame_captureAt (mode : Mode) {r r' : Recording} (h : r.ExtendedBy r') (now : Instant)
    (timestamp : String) :
    (captureAt mode r' now timestamp).1.frame = (captureAt mode r now timestamp).1.frame := by
  have project : r'.build.project = r.build.project := by rw [h.build.others]
  have name : r'.build.name = r.build.name := by rw [h.build.others]; rfl
  have number : r'.build.number = r.build.number := by rw [h.build.others]
  cases mode with
  | delegated =>
    unfold captureAt
    rw [h.build.others]
    rfl
  | direct =>
    unfold captureAt
    dsimp only
    rw [withRoot_root_congr h.triggers project name number, h.build.others]
    rfl

/-- The builds of recordings that are looked at one after the other, each one once and then as many
times more as stands beside it. -/
def lookedAt (visits : List (Recording × Nat)) : List Build :=
  visits.flatMap fun visit => List.replicate (visit.2 + 1) visit.1.build

theorem mem_lookedAt {visits : List (Recording × Nat)} {b : Build} :
    b ∈ lookedAt visits ↔ ∃ r ∈ visits.map Prod.fst, r.build = b := by
  simp [lookedAt, eq_comm]

/-- A snapshot taken of the first build of a chain and updated from the others in turn, from each
one once or more often, is the snapshot taken of the last build at once. Neither is there if the
timestamp has no printed form. -/
theorem enriched_eq_captured_late (mode : Mode) (first : Recording)
    (visits : List (Recording × Nat)) (now : Instant) (format : DateFormat)
    (chain : (first :: visits.map Prod.fst).IsChain Recording.ExtendedBy) :
    ((capture mode first now format).map fun captured =>
        (captured.1.run ((lookedAt visits).map .update)).1) =
      (capture mode ((first :: visits.map Prod.fst).getLast (List.cons_ne_nil _ _)) now format).map
        Prod.fst := by
  have extended := Recording.ExtendedBy.getLast_of_chain chain
  have mem := List.getLast_mem (List.cons_ne_nil first (visits.map Prod.fst))
  generalize (first :: visits.map Prod.fst).getLast (List.cons_ne_nil _ _) = last at extended mem ⊢
  have whole := extended first List.mem_cons_self
  have scheduled : last.build.scheduled = first.build.scheduled := by
    rw [whole.build.others]
    rfl
  -- What any of the builds offers stands until the last, so the last one offers it too.
  have kept : ∀ b ∈ first.build :: lookedAt visits, b.ExtendedBy last.build := by
    intro b hb
    rcases List.mem_cons.1 hb with rfl | hb
    · exact whole.build
    · obtain ⟨r, hr, rfl⟩ := mem_lookedAt.1 hb
      exact (extended r (List.mem_cons_of_mem _ hr)).build
  have seen : last.build ∈ first.build :: lookedAt visits := by
    rcases List.mem_cons.1 mem with rfl | mem
    · exact List.mem_cons_self
    · exact List.mem_cons_of_mem _ (mem_lookedAt.2 ⟨last, mem, rfl⟩)
  rw [capture, capture, scheduled, Option.map_map, Option.map_map]
  refine congrArg (Option.map · _) (funext fun timestamp => ?_)
  calc ((captureAt mode first now timestamp).1.run ((lookedAt visits).map .update)).1
    _ = (captureAt mode first now timestamp).1.frame.withOffers last.build := by
      rw [captureAt_fst]
      exact run_updates_withOffers _ kept seen
    _ = (captureAt mode last now timestamp).1 := by
      rw [captureAt_fst mode last, frame_captureAt mode whole]

def running : Build where
  id := "8"
  project := ⟨"nightly", "ci/nightly"⟩
  number := 8
  startTime := ⟨1700086400, 0, by decide, by decide, by decide⟩
  actions := [.unknown]

def tested : Build := { running with actions := [.unknown, .testResults ⟨3, 1, 0, []⟩] }

def finished : Build :=
  { running with
    result := some .unstable
    actions := [.imageFingerprint ⟨.ofList ["sha256:1"]⟩, .testResults ⟨3, 1, 0, []⟩, .unknown] }

theorem running_extendedBy_tested : running.ExtendedBy tested where
  result _ := nofun
  reports kind report shown := by
    cases kind <;> simp [running, Build.report?, Report.kind?] at shown
  others := rfl

theorem tested_extendedBy_finished : tested.ExtendedBy finished where
  result _ := nofun
  reports kind report shown := by
    cases kind with
    | testResults =>
      rw [← shown]
      decide
    | sourceControl | dependency | imageFingerprint =>
      simp [tested, Build.report?, Report.kind?] at shown
  others := rfl

/-- A snapshot of the running build, updated three times while it is tested and once at its end. -/
theorem finished_captured_late :
    ([⟨running, [running]⟩, ⟨tested, [running]⟩, ⟨finished, [running]⟩] : List Recording).IsChain
      Recording.ExtendedBy ∧
    (capture .direct ⟨finished, [running]⟩ running.startTime default).isSome ∧
    ((capture .direct ⟨running, [running]⟩ running.startTime default).map fun captured =>
        (captured.1.run ((lookedAt [(⟨tested, [running]⟩, 2), (⟨finished, [running]⟩, 0)]).map
          .update)).1) =
      (capture .direct ⟨finished, [running]⟩ running.startTime default).map Prod.fst := by
  have chain : ([⟨running, [running]⟩, ⟨tested, [running]⟩, ⟨finished, [running]⟩] :
      List Recording).IsChain Recording.ExtendedBy :=
    .cons_cons ⟨running_extendedBy_tested, rfl⟩
      (.cons_cons ⟨tested_extendedBy_finished, rfl⟩ (.singleton _))
  exact ⟨chain, by decide, enriched_eq_captured_late .direct ⟨running, [running]⟩
    [(⟨tested, [running]⟩, 2), (⟨finished, [running]⟩, 0)] running.startTime default chain⟩

end Snapshot

end BuildCapture
