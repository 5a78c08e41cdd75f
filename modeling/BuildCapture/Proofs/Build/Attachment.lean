import BuildCapture.Build.Basic
import Mathlib.Data.List.Induction
set_option autoImplicit false

/-!
Attached reports. One that is attached takes the place of those of its kind, so of all that are
attached to a build the last one of each kind is left, and it is the only one of that kind
(`Build.attachAll_reports`). Reports of no known kind take no place but their own.
-/

namespace BuildCapture

namespace Report

/-- The reports of a kind, or those of no known kind, in their order. -/
def ofKind (kind : Option ReportKind) (reports : List Report) : List Report :=
  reports.filter fun r => r.kind? = kind

@[simp] theorem ofKind_append (kind : Option ReportKind) (reports others : List Report) :
    ofKind kind (reports ++ others) = ofKind kind reports ++ ofKind kind others :=
  List.filter_append reports others

theorem ofKind_singleton (kind : Option ReportKind) (r : Report) :
    ofKind kind [r] = if r.kind? = kind then [r] else [] := by
  simp [ofKind, List.filter_cons]

theorem ofKind_eq_nil_iff {kind : Option ReportKind} {reports : List Report} :
    ofKind kind reports = [] ↔ ∀ r ∈ reports, r.kind? ≠ kind := by
  simp [ofKind, List.filter_eq_nil_iff]

/-- Whether a report takes the place of another one. -/
def replaces (r other : Report) : Bool := r.kind?.isSome && other.kind? = r.kind?

theorem ofKind_filter_replaces (kind : Option ReportKind) (r : Report) (reports : List Report) :
    ofKind kind (reports.filter fun other => !r.replaces other) =
      if r.kind? = kind ∧ kind.isSome then [] else ofKind kind reports := by
  rw [ofKind, List.filter_filter]
  split
  case isTrue same =>
    obtain ⟨rfl, known⟩ := same
    rw [List.filter_eq_nil_iff]
    simp [replaces, known]
  case isFalse other =>
    refine List.filter_congr fun found _ => ?_
    by_cases here : found.kind? = kind
    · have kept : r.replaces found = false := by
        rw [replaces, here, Bool.and_eq_false_iff, decide_eq_false_iff_not]
        cases known : r.kind? with
        | none => exact .inl rfl
        | some own => exact .inr fun same => other (by simp [same, known])
      simp [here, kept]
    · simp [here]

/-- The reports that no later one replaces. -/
def unreplaced : List Report → List Report
  | [] => []
  | r :: later => if later.any (·.replaces r) then unreplaced later else r :: unreplaced later

theorem unreplaced_concat (reports : List Report) (r : Report) :
    unreplaced (reports ++ [r]) =
      (unreplaced reports).filter (fun other => !r.replaces other) ++ [r] := by
  induction reports with
  | nil => rfl
  | cons first later ih =>
    rw [List.cons_append, unreplaced, unreplaced, List.any_append, ih]
    cases later.any (·.replaces first) with
    | true => simp
    | false => cases replaced : r.replaces first <;> simp [replaced]

theorem unreplaced_sublist (reports : List Report) : (unreplaced reports).Sublist reports := by
  induction reports with
  | nil => exact .refl _
  | cons first later ih =>
    rw [unreplaced]
    split
    case isTrue => exact ih.cons first
    case isFalse => exact ih.cons_cons first

end Report

namespace Build

open Report (ofKind)

theorem attach_eq (b : Build) (r : Report) :
    b.attach r =
      { b with actions := b.actions.filter (fun other => !r.replaces other) ++ [r] } := by
  unfold attach Report.replaces
  cases r.kind? with
  | none => rw [List.filter_eq_self.2 (by simp)]
  | some kind => simp

theorem ofKind_some_attach (kind : ReportKind) (b : Build) (r : Report) :
    ofKind (some kind) (b.attach r).actions =
      if r.kind? = some kind then [r] else ofKind (some kind) b.actions := by
  rw [attach_eq, Report.ofKind_append, Report.ofKind_filter_replaces, Report.ofKind_singleton]
  split <;> simp_all

theorem ofKind_none_attach (b : Build) (r : Report) :
    ofKind none (b.attach r).actions = ofKind none b.actions ++ ofKind none [r] := by
  rw [attach_eq, Report.ofKind_append, Report.ofKind_filter_replaces]
  simp

def attachAll (b : Build) (reports : List Report) : Build := reports.foldl attach b

theorem attachAll_concat (b : Build) (reports : List Report) (r : Report) :
    b.attachAll (reports ++ [r]) = (b.attachAll reports).attach r := by
  rw [attachAll, List.foldl_append]
  rfl

theorem ofKind_some_attachAll (kind : ReportKind) (b : Build) (reports : List Report) :
    ofKind (some kind) (b.attachAll reports).actions =
      ((ofKind (some kind) reports).getLast?.map ([·])).getD (ofKind (some kind) b.actions) := by
  induction reports using List.reverseRecOn with
  | nil => rfl
  | append_singleton reports r ih =>
    rw [attachAll_concat, ofKind_some_attach, Report.ofKind_append, Report.ofKind_singleton, ih]
    split
    case isTrue => rw [List.getLast?_concat]; rfl
    case isFalse => rw [List.append_nil]

theorem ofKind_none_attachAll (b : Build) (reports : List Report) :
    ofKind none (b.attachAll reports).actions = ofKind none b.actions ++ ofKind none reports := by
  induction reports using List.reverseRecOn with
  | nil => exact (List.append_nil _).symm
  | append_singleton reports r ih =>
    rw [attachAll_concat, ofKind_none_attach, ih, Report.ofKind_append, List.append_assoc]

theorem attachAll_eq (b : Build) (reports : List Report) :
    b.attachAll reports =
      { b with actions := b.actions.filter (fun r => !reports.any (·.replaces r)) ++
          Report.unreplaced reports } := by
  induction reports using List.reverseRecOn with
  | nil =>
    have kept : b.actions.filter (fun r => !([] : List Report).any (·.replaces r)) = b.actions :=
      List.filter_eq_self.2 fun _ _ => rfl
    rw [kept, Report.unreplaced, List.append_nil]
    rfl
  | append_singleton reports r ih =>
    have kept : (b.actions.filter fun other => !reports.any (·.replaces other)).filter
        (fun other => !r.replaces other) =
          b.actions.filter fun other => !(reports ++ [r]).any (·.replaces other) := by
      rw [List.filter_filter]
      refine List.filter_congr fun other _ => ?_
      simp [Bool.and_comm]
    rw [attachAll_concat, ih, attach_eq, List.filter_append, List.append_assoc, kept,
      Report.unreplaced_concat]

theorem report?_eq_head? (b : Build) (kind : ReportKind) :
    b.report? kind = (ofKind (some kind) b.actions).head? := (List.head?_filter ..).symm

/-- What reports attached one after the other leave in a build. Of each kind attached there is the
last report of that kind, it is the only one, and it is the one looked up. Of the other kinds there
are the reports of the build, in their order, and of no known kind all that the build had and all
that were attached. The build's own reports that are not replaced come first, then those attached
that no later one replaces, in their order, and nothing else of the build changes. So a new build
never holds two reports of one kind. -/
theorem attachAll_reports (b : Build) (reports : List Report) :
    (∀ kind, (∃ r ∈ reports, r.kind? = some kind) →
      ∃ last, (ofKind (some kind) reports).getLast? = some last ∧
        (b.attachAll reports).report? kind = some last ∧
        ofKind (some kind) (b.attachAll reports).actions = [last]) ∧
    (∀ kind, (∀ r ∈ reports, r.kind? ≠ some kind) →
      (b.attachAll reports).report? kind = b.report? kind ∧
      ofKind (some kind) (b.attachAll reports).actions = ofKind (some kind) b.actions) ∧
    ofKind none (b.attachAll reports).actions = ofKind none b.actions ++ ofKind none reports ∧
    ((Report.unreplaced reports).Sublist reports ∧ b.attachAll reports =
      { b with actions := b.actions.filter (fun r => !reports.any (·.replaces r)) ++
          Report.unreplaced reports }) ∧
    ∀ id project number startTime kind,
      (ofKind (some kind) ((new id project number startTime).attachAll reports).actions).length ≤
        1 := by
  refine ⟨?attached, ?others, ofKind_none_attachAll b reports,
    ⟨Report.unreplaced_sublist reports, attachAll_eq b reports⟩, ?new⟩
  case attached =>
    intro kind ⟨r, mem, known⟩
    cases found : (ofKind (some kind) reports).getLast? with
    | none =>
      have absent := Report.ofKind_eq_nil_iff.1 (List.getLast?_eq_none_iff.1 found)
      exact absurd known (absent r mem)
    | some last =>
      have only : ofKind (some kind) (b.attachAll reports).actions = [last] := by
        rw [ofKind_some_attachAll, found]
        rfl
      exact ⟨last, rfl, by rw [report?_eq_head?, only]; rfl, only⟩
  case others =>
    intro kind absent
    have same :
        ofKind (some kind) (b.attachAll reports).actions = ofKind (some kind) b.actions := by
      rw [ofKind_some_attachAll, Report.ofKind_eq_nil_iff.2 absent]
      rfl
    exact ⟨by rw [report?_eq_head?, report?_eq_head?, same], same⟩
  case new =>
    intro id project number startTime kind
    rw [ofKind_some_attachAll]
    cases (ofKind (some kind) reports).getLast? with
    | none => exact Nat.zero_le 1
    | some last => exact Nat.le_refl 1

def published : Build where
  id := "3"
  project := ⟨"publish", "ops/publish"⟩
  number := 3
  startTime := ⟨1490000000, 0, by decide, by decide, by decide⟩
  actions := [.imageFingerprint ⟨∅⟩, .unknown, .testResults ⟨2, 0, 0, []⟩,
    .imageFingerprint ⟨.ofList ["sha256:1"]⟩]

def republished : List Report :=
  [.imageFingerprint ⟨.ofList ["sha256:2"]⟩, .unknown, .imageFingerprint ⟨∅⟩]

/-- The last report of the images is left, though the first one of the build was the same. -/
theorem published_attachAll :
    (∃ r ∈ republished, r.kind? = some .imageFingerprint) ∧
    (∀ r ∈ republished, r.kind? ≠ some .testResults) ∧
    (published.attachAll republished).report? .imageFingerprint = some (.imageFingerprint ⟨∅⟩) ∧
    (published.attachAll republished).report? .testResults = published.report? .testResults := by
  obtain ⟨attached, others, -⟩ := attachAll_reports published republished
  have images : ∃ r ∈ republished, r.kind? = some .imageFingerprint := by decide
  have untested : ∀ r ∈ republished, r.kind? ≠ some .testResults := by decide
  obtain ⟨last, isLast, found, -⟩ := attached .imageFingerprint images
  cases isLast
  exact ⟨images, untested, found, (others .testResults untested).1⟩

end Build

end BuildCapture
