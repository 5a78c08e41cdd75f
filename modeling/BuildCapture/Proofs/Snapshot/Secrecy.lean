import BuildCapture.Names.Lemmas
import BuildCapture.Proofs.Snapshot.Enrichment
import BuildCapture.Snapshot.Capture
import BuildCapture.Snapshot.Codec
import Mathlib.Data.List.Forall2
set_option autoImplicit false

/-!
Nothing of a sensitive variable gets out. Two builds that differ in hidden variables only stay so
related, source by source, while their variables are merged; dropping the hidden names then makes
them one. No other part of a capture reads variables.
-/

namespace BuildCapture

/-- Maps with the same values under all names that are not hidden. -/
def NameMap.AgreeOff {α : Type} (hidden : NameSet) (m m' : NameMap α) : Prop :=
  ∀ name, hidden.contains name = false → m.get? name = m'.get? name

namespace NameMap.AgreeOff

variable {α : Type} {hidden : NameSet} {m m' n n' : NameMap α}

theorem refl (hidden : NameSet) (m : NameMap α) : m.AgreeOff hidden m := fun _ _ => rfl

theorem append (h : m.AgreeOff hidden m') (h' : n.AgreeOff hidden n') :
    (m ++ n).AgreeOff hidden (m' ++ n') := by
  intro name shown
  rw [get?_append, get?_append, h name shown, h' name shown]

theorem insert {name : String} (secret : hidden.contains name = true) (value : α) (m : NameMap α) :
    m.AgreeOff hidden (m.insert name value) := by
  intro other shown
  have ne : other ≠ name := by
    rintro rfl
    simp [secret] at shown
  rw [get?_insert, if_neg ne]

theorem without_eq (h : m.AgreeOff hidden m') : m.without hidden = m'.without hidden := by
  refine ext_get? fun name => ?_
  rw [get?_without, get?_without]
  cases shown : hidden.contains name with
  | true => rfl
  | false => exact h name shown

end NameMap.AgreeOff

/-- Builds that differ in the hidden variables of their sources only. -/
structure Build.AgreeOff (hidden : NameSet) (b b' : Build) : Prop where
  declared : b.buildVariables.AgreeOff hidden b'.buildVariables
  contributed : List.Forall₂ (Option.Rel fun c c' : Contributor => c.vars.AgreeOff hidden c'.vars)
    b.environments b'.environments
  resolved : Option.Rel (NameMap.AgreeOff hidden) b.environment b'.environment
  others : b' = { b with
    buildVariables := b'.buildVariables
    environments := b'.environments
    environment := b'.environment }

structure Recording.AgreeOff (hidden : NameSet) (r r' : Recording) : Prop where
  build : r.build.AgreeOff hidden r'.build
  triggers : r'.triggers = r.triggers

namespace Build.AgreeOff

variable {hidden : NameSet} {b b' : Build}

theorem refl (hidden : NameSet) (b : Build) : b.AgreeOff hidden b where
  declared := .refl hidden b.buildVariables
  contributed := by
    refine List.forall₂_same.2 fun place _ => ?_
    cases place with
    | none => exact .none
    | some c => exact .some (.refl hidden c.vars)
  resolved := by
    cases b.environment with
    | none => exact .none
    | some environment => exact .some (.refl hidden environment)
  others := rfl

theorem contributors (h : b.AgreeOff hidden b') :
    List.Forall₂ (fun c c' : Contributor => c.vars.AgreeOff hidden c'.vars)
      b.contributors b'.contributors :=
  List.rel_filterMap (fun _ _ related => related) h.contributed

end Build.AgreeOff

def Build.withVariable (b : Build) (name value : String) : Build :=
  { b with
    buildVariables := b.buildVariables.insert name value
    environments := b.environments.map fun place => place.map fun c => ⟨c.vars.insert name value⟩
    environment := b.environment.map fun environment => environment.insert name value }

theorem Build.agreeOff_withVariable {hidden : NameSet} {name : String}
    (secret : hidden.contains name = true) (b : Build) (value : String) :
    b.AgreeOff hidden (b.withVariable name value) where
  declared := .insert secret value b.buildVariables
  contributed := by
    refine List.forall₂_map_right_iff.2 (List.forall₂_same.2 fun place _ => ?_)
    cases place with
    | none => exact .none
    | some c => exact .some (.insert secret value c.vars)
  resolved := by
    unfold withVariable
    cases b.environment with
    | none => exact .none
    | some environment => exact .some (.insert secret value environment)
  others := rfl

namespace Snapshot

structure Merge.AgreeOff (hidden : NameSet) (m m' : Merge) : Prop where
  merged : m.merged.AgreeOff hidden m'.merged
  contributed : m.contributed.AgreeOff hidden m'.contributed

namespace Merge.AgreeOff

variable {hidden : NameSet} {m m' : Merge}

theorem turn (h : m.AgreeOff hidden m') {c c' : Contributor}
    (vars : c.vars.AgreeOff hidden c'.vars) : (m.turn c).AgreeOff hidden (m'.turn c') where
  merged := h.merged.append (h.contributed.append vars)
  contributed := .refl hidden ∅

theorem foldl_turn {cs cs' : List Contributor}
    (same : List.Forall₂ (fun c c' : Contributor => c.vars.AgreeOff hidden c'.vars) cs cs')
    (h : m.AgreeOff hidden m') :
    (cs.foldl Merge.turn m).AgreeOff hidden (cs'.foldl Merge.turn m') := by
  induction same generalizing m m' with
  | nil => exact h
  | cons vars _ ih => exact ih (h.turn vars)

end Merge.AgreeOff

section

variable {hidden : NameSet} {b b' : Build}

theorem contributedVariables_agreeOff (h : b.AgreeOff hidden b') :
    (contributedVariables b).AgreeOff hidden (contributedVariables b') := by
  have start : Merge.AgreeOff hidden { merged := b.buildVariables }
      { merged := b'.buildVariables } := ⟨h.declared, .refl hidden ∅⟩
  exact (start.foldl_turn h.contributors).merged

theorem allVariables_agreeOff (mode : Mode) (h : b.AgreeOff hidden b') :
    (allVariables mode b).1.AgreeOff hidden (allVariables mode b').1 ∧
      (allVariables mode b).2 = (allVariables mode b').2 := by
  have contributed := contributedVariables_agreeOff h
  have name : b'.name = b.name := by rw [h.others]; rfl
  have fullName : b'.fullName = b.fullName := by rw [h.others]; rfl
  have resolved := h.resolved
  -- Whether there is an environment is no secret, so both builds take the same branch.
  unfold allVariables Build.resolveEnvironment
  rw [name, fullName]
  cases he : b.environment <;> cases he' : b'.environment <;> rw [he, he'] at resolved <;>
    cases resolved
  case none.none.none =>
    cases mode with
    | direct => exact ⟨contributed, rfl⟩
    | delegated => exact ⟨.refl hidden ∅, rfl⟩
  case some.some.some environment environment' same =>
    cases mode with
    | direct => exact ⟨contributed.append same, rfl⟩
    | delegated => exact ⟨same, rfl⟩

theorem bare_agreeOff (h : b.AgreeOff hidden b') (now : Instant) (timestamp : String) :
    bare b' now timestamp = bare b now timestamp := by
  rw [h.others]
  rfl

theorem updateResult_agreeOff (h : b.AgreeOff hidden b') (s : Snapshot) :
    s.updateResult b' = s.updateResult b := by
  rw [h.others]
  rfl

end

section

variable {hidden : NameSet} {r r' : Recording}

theorem withRoot_agreeOff (h : r.AgreeOff hidden r') (s : Snapshot) :
    s.withRoot r'.root = s.withRoot r.root := by
  refine withRoot_root_congr h.triggers ?_ ?_ ?_ s <;> rw [h.build.others]
  rfl

theorem capture_agreeOff (mode : Mode) (h : r.AgreeOff r.build.sensitiveBuildVariables r')
    (now : Instant) (format : DateFormat) :
    capture mode r now format = capture mode r' now format := by
  have scheduled : r'.build.scheduled = r.build.scheduled := by rw [h.build.others]; rfl
  have sensitive : r'.build.sensitiveBuildVariables = r.build.sensitiveBuildVariables := by
    rw [h.build.others]
  -- The merged variables still differ in what is hidden; dropping it is what makes them equal.
  obtain ⟨vars, missed⟩ := allVariables_agreeOff mode h.build
  have at_timestamp : captureAt mode r now = captureAt mode r' now := by
    funext timestamp
    unfold captureAt
    rw [bare_agreeOff h.build, updateResult_agreeOff h.build, sensitive]
    simp only [withRoot_agreeOff h, withVariables, vars.without_eq, missed]
  rw [capture, capture, scheduled, at_timestamp]

end

inductive Operation.AgreeOff (hidden : NameSet) : Operation → Operation → Prop where
  | update {b b' : Build} (h : b.AgreeOff hidden b') : AgreeOff hidden (.update b) (.update b')
  | setResult (result : BuildResult) : AgreeOff hidden (.setResult result) (.setResult result)
  | setTestResults (tests : Option TestSummary) :
    AgreeOff hidden (.setTestResults tests) (.setTestResults tests)

namespace Operation.AgreeOff

variable {hidden : NameSet} {op op' : Operation}

theorem refl (hidden : NameSet) (op : Operation) : op.AgreeOff hidden op := by
  cases op with
  | update b => exact .update (.refl hidden b)
  | setResult result => exact .setResult result
  | setTestResults tests => exact .setTestResults tests

theorem apply_eq (h : op.AgreeOff hidden op') (s : Snapshot) : op'.apply s = op.apply s := by
  cases h with
  | update h => exact updateResult_agreeOff h s
  | setResult _ | setTestResults _ => rfl

end Operation.AgreeOff

theorem run_agreeOff {hidden : NameSet} {ops ops' : List Operation}
    (same : List.Forall₂ (Operation.AgreeOff hidden) ops ops') (s : Snapshot) :
    s.run ops = s.run ops' := by
  induction same generalizing s with
  | nil => rfl
  | cons h _ ih =>
    unfold run
    rw [h.apply_eq s]
    simp only [ih]

/-- All that a capture and the operations after it let out: the snapshot, its document and the log
lines. -/
def released (mode : Mode) (r : Recording) (now : Instant) (format : DateFormat)
    (ops : List Operation) : Option (Snapshot × String × List String) :=
  (capture mode r now format).map fun (s, events) =>
    let (s, later) := s.run ops
    (s, s.toJson, (events ++ later).map Event.line)

/-- Sensitive variables have no influence on what is let out, whichever source they come from and
however they are captured; nor have those of the builds that the snapshot is updated from. -/
theorem released_withholds_sensitive (mode : Mode) {r r' : Recording} (now : Instant)
    (format : DateFormat) (h : r.AgreeOff r.build.sensitiveBuildVariables r')
    {ops ops' : List Operation}
    (same : List.Forall₂ (Operation.AgreeOff r.build.sensitiveBuildVariables) ops ops') :
    released mode r now format ops = released mode r' now format ops' := by
  unfold released
  rw [capture_agreeOff mode h now format]
  simp only [run_agreeOff same]

/-- A build with an empty environment and a contributor that contributes nothing, of which the token
is to be kept secret. -/
def nightly : Build where
  id := "7"
  project := ⟨"nightly", "ci/nightly"⟩
  number := 7
  startTime := ⟨1700000000, 0, by decide, by decide, by decide⟩
  environment := some ∅
  environments := [none, some ⟨∅⟩]
  sensitiveBuildVariables := .ofList ["TOKEN"]

/-- A token set in every source shows neither in the capture nor after an update. -/
theorem released_withholds_token :
    nightly.withVariable "TOKEN" "s3cret" ≠ nightly ∧
    (released .direct ⟨nightly, []⟩ nightly.startTime default
      [.setResult .aborted, .update nightly]).isSome ∧
    released .direct ⟨nightly, []⟩ nightly.startTime default
        [.setResult .aborted, .update nightly] =
      released .direct ⟨nightly.withVariable "TOKEN" "s3cret", []⟩ nightly.startTime default
        [.setResult .aborted, .update (nightly.withVariable "TOKEN" "s3cret")] := by
  have secret : nightly.sensitiveBuildVariables.contains "TOKEN" = true := by decide
  have builds := Build.agreeOff_withVariable secret nightly "s3cret"
  have recordings : Recording.AgreeOff nightly.sensitiveBuildVariables ⟨nightly, []⟩
      ⟨nightly.withVariable "TOKEN" "s3cret", []⟩ := ⟨builds, rfl⟩
  refine ⟨by decide, by decide, ?_⟩
  exact released_withholds_sensitive .direct nightly.startTime default recordings
    (.cons (.refl _ (.setResult .aborted)) (.cons (.update builds) .nil))

end Snapshot

end BuildCapture
