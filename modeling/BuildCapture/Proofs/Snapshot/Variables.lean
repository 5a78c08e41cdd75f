import BuildCapture.Names.Lemmas
import BuildCapture.Proofs.Snapshot.Enrichment
import BuildCapture.Snapshot.Capture
set_option autoImplicit false

/-!
Where the variables of a direct capture come from. The contributors share one scratch map, which is
empty at the start of every turn; so a contributor's variables go over those of all before it, and
the layers end up in the order of `direct_variables`.
-/

namespace BuildCapture

/-- The value that the last contributor to define a name gives it; empty places are passed over. -/
def Build.lastContributed? (b : Build) (name : String) : Option String :=
  b.environments.reverse.findSome? fun place => place.bind fun c => c.vars.get? name

namespace Snapshot

namespace Merge

def Drained (m : Merge) : Prop := m.contributed = ∅

theorem drained_turn (m : Merge) (c : Contributor) : (m.turn c).Drained := rfl

theorem get?_turn {m : Merge} (h : m.Drained) (c : Contributor) (name : String) :
    (m.turn c).merged.get? name = (c.vars.get? name).or (m.merged.get? name) := by
  have drained : m.contributed = ∅ := h
  simp [turn, moveOver, Contributor.contribute, drained]

theorem get?_foldl_turn (cs : List Contributor) {m : Merge} (h : m.Drained) (name : String) :
    (cs.foldl turn m).merged.get? name =
      (cs.reverse.findSome? fun c => c.vars.get? name).or (m.merged.get? name) := by
  induction cs generalizing m with
  | nil => rfl
  | cons c cs ih =>
    rw [List.foldl_cons, ih (drained_turn m c), get?_turn h, List.reverse_cons,
      List.findSome?_append, List.findSome?_singleton, Option.or_assoc]

end Merge

theorem findSome?_contributors (b : Build) (name : String) :
    (b.contributors.reverse.findSome? fun c => c.vars.get? name) = b.lastContributed? name := by
  rw [Build.contributors, Build.lastContributed?, ← List.filterMap_reverse]
  induction b.environments.reverse with
  | nil => rfl
  | cons place rest ih =>
    cases place with
    | none => simpa using ih
    | some c => simp [List.findSome?_cons, ih]

theorem get?_contributedVariables (b : Build) (name : String) :
    (contributedVariables b).get? name =
      (b.lastContributed? name).or (b.buildVariables.get? name) := by
  have start : Merge.Drained { merged := b.buildVariables } := rfl
  rw [contributedVariables, Merge.get?_foldl_turn b.contributors start, findSome?_contributors]

theorem get?_allVariables_direct (b : Build) (name : String) :
    (allVariables .direct b).1.get? name =
      ((b.environment.getD ∅).get? name).or
        ((b.lastContributed? name).or (b.buildVariables.get? name)) := by
  cases h : b.environment with
  | none => simp [allVariables, Build.resolveEnvironment, h, get?_contributedVariables]
  | some environment =>
    simp [allVariables, Build.resolveEnvironment, h, get?_contributedVariables]

theorem allVariables_direct_events (b : Build) :
    (allVariables .direct b).2 =
      if b.environment.isNone then [.variablesIncomplete b.name ⟨b.fullName⟩] else [] := by
  cases h : b.environment <;> simp [allVariables, Build.resolveEnvironment, h]

theorem fillReport_quiet {α : Type} (slot : Slot α) (kind : ReportKind)
    (summary : Option Report → α) {events : Option Report → List Event}
    (quiet : ∀ report, (events report).filter Event.isWarning = []) (b : Build) :
    (fillReport slot kind summary events b).2.filter Event.isWarning = [] := by
  rw [fillReport_events]
  split
  case isTrue => simp [quiet, Event.isWarning]
  case isFalse => rfl

theorem sourceEvents_quiet (report : Option Report) :
    (SourceSummary.events report).filter Event.isWarning = [] := by
  unfold SourceSummary.events
  split
  · split <;> rfl
  · rfl

theorem updateResult_quiet (s : Snapshot) (b : Build) :
    (s.updateResult b).2.filter Event.isWarning = [] := by
  have silent : ∀ report : Option Report, ([] : List Event).filter Event.isWarning = [] :=
    fun _ => rfl
  rw [updateResult_snd]
  simp only [List.filter_append, List.append_eq_nil_iff]
  refine ⟨⟨⟨⟨?_, ?_⟩, ?_⟩, ?_⟩, ?_⟩
  · split <;> rfl
  · exact fillReport_quiet _ _ _ silent b
  · exact fillReport_quiet _ _ _ sourceEvents_quiet b
  · exact fillReport_quiet _ _ _ silent b
  · exact fillReport_quiet _ _ _ silent b

theorem captureAt_buildVariables (mode : Mode) (r : Recording) (now : Instant)
    (timestamp : String) :
    (captureAt mode r now timestamp).1.buildVariables =
      (allVariables mode r.build).1.without r.build.sensitiveBuildVariables := rfl

theorem captureAt_sensitiveBuildVariables (mode : Mode) (r : Recording) (now : Instant)
    (timestamp : String) :
    (captureAt mode r now timestamp).1.sensitiveBuildVariables =
      r.build.sensitiveBuildVariables := rfl

theorem captureAt_snd (mode : Mode) (r : Recording) (now : Instant) (timestamp : String) :
    (captureAt mode r now timestamp).2 =
      ((bare r.build now timestamp).updateResult r.build).2 ++ (allVariables mode r.build).2 := rfl

/-- A direct capture fails only where the timestamp has no printed form. Its variables are those of
the environment, else of the last contributor, else of the build itself, without the sensitive ones.
An environment that cannot be resolved counts as empty, and is the one thing that is warned of. -/
theorem direct_variables (r : Recording) (now : Instant) (format : DateFormat) :
    match direct r now format with
    | none => format.write r.build.scheduled = none
    | some (s, events) =>
      s.sensitiveBuildVariables = r.build.sensitiveBuildVariables ∧
      (∀ name, s.buildVariables.get? name =
        if r.build.sensitiveBuildVariables.contains name then none
        else ((r.build.environment.getD ∅).get? name).or
          ((r.build.lastContributed? name).or (r.build.buildVariables.get? name))) ∧
      events.filter Event.isWarning =
        if r.build.environment.isNone then
          [.variablesIncomplete r.build.name ⟨r.build.fullName⟩]
        else [] := by
  rw [direct, capture]
  cases printed : format.write r.build.scheduled with
  | none => rfl
  | some timestamp =>
    have withheld := captureAt_sensitiveBuildVariables .direct r now timestamp
    have kept := captureAt_buildVariables .direct r now timestamp
    have told := captureAt_snd .direct r now timestamp
    rw [Option.map_some]
    -- All that counts of the capture is in these three facts.
    generalize captureAt .direct r now timestamp = captured at withheld kept told ⊢
    obtain ⟨s, events⟩ := captured
    dsimp only at withheld kept told ⊢
    refine ⟨withheld, fun name => ?_, ?_⟩
    · rw [kept, NameMap.get?_without, get?_allVariables_direct]
    · rw [told, List.filter_append, updateResult_quiet, allVariables_direct_events]
      split <;> rfl

end Snapshot

end BuildCapture
