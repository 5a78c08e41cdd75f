import BuildCapture.Proofs.Time.Pattern
import BuildCapture.Snapshot.Capture
set_option autoImplicit false

namespace BuildCapture

/-- What tells which build it is that stands at the root of a snapshot. -/
structure Identity where
  projectName : String
  fullProjectName : String
  displayName : String
  number : Int32

def Build.identity (b : Build) : Identity := ⟨b.project.name, b.project.fullName, b.name, b.number⟩

namespace Recording

/-- The chain of triggers of a recording ends in a build: the one that nothing has triggered. -/
inductive EndsIn : Recording → Build → Prop where
  | here {r : Recording} (h : r.parent? = none) : r.EndsIn r.build
  | above {r p : Recording} {b : Build} (h : r.parent? = some p) (ends : p.EndsIn b) : r.EndsIn b

theorem root_of_parent?_eq_none {r : Recording} (h : r.parent? = none) : r.root = r.build := by
  obtain ⟨build, triggers⟩ := r
  cases triggers with
  | nil => rfl
  | cons b rest => cases h

theorem root_of_parent?_eq_some {r p : Recording} (h : r.parent? = some p) : r.root = p.root := by
  obtain ⟨build, triggers⟩ := r
  cases triggers with
  | nil => cases h
  | cons b rest =>
    cases h
    rw [root, root, List.getLast?_cons]
    rfl

theorem endsIn_root (r : Recording) : r.EndsIn r.root := by
  obtain ⟨build, triggers⟩ := r
  induction triggers generalizing build with
  | nil => exact .here rfl
  | cons b rest ih =>
    have parent : (Recording.mk build (b :: rest)).parent? = some ⟨b, rest⟩ := rfl
    rw [root_of_parent?_eq_some parent]
    exact .above parent (ih b)

theorem endsIn_iff {r : Recording} {b : Build} : r.EndsIn b ↔ b = r.root := by
  constructor
  · intro ends
    induction ends with
    | here h => exact (root_of_parent?_eq_none h).symm
    | above h _ ih => rw [ih, root_of_parent?_eq_some h]
  · rintro rfl
    exact r.endsIn_root

end Recording

namespace Snapshot

def identity (s : Snapshot) : Identity :=
  ⟨s.projectName, s.fullProjectName, s.displayName, s.buildNum⟩

def rootIdentity (s : Snapshot) : Identity :=
  ⟨s.rootProjectName, s.rootFullProjectName, s.rootProjectDisplayName, s.rootBuildNum⟩

theorem withRoot_congr {root root' : Build} (h : root.identity = root'.identity) (s : Snapshot) :
    s.withRoot root = s.withRoot root' := by
  obtain ⟨name, fullName, displayName, number⟩ := Identity.mk.inj h
  simp only [withRoot, name, fullName, displayName, number]

theorem captureAt_congr_root {r r' : Recording} (build : r.build = r'.build)
    (root : r.root.identity = r'.root.identity) (now : Instant) (timestamp : String) :
    captureAt .direct r now timestamp = captureAt .direct r' now timestamp := by
  unfold captureAt
  dsimp only
  rw [build, withRoot_congr root]

theorem direct_congr_root {r r' : Recording} (build : r.build = r'.build)
    (root : r.root.identity = r'.root.identity) (now : Instant) (format : DateFormat) :
    direct r now format = direct r' now format := by
  rw [direct, direct, capture, capture, build,
    show captureAt .direct r now = captureAt .direct r' now from
      funext (captureAt_congr_root build root now)]

theorem identities_of_direct {r : Recording} {now : Instant} {format : DateFormat} {s : Snapshot}
    {events : List Event} (h : direct r now format = some (s, events)) :
    s.identity = r.build.identity ∧ s.rootIdentity = r.root.identity := by
  obtain ⟨timestamp, -, captured⟩ := Option.map_eq_some_iff.1 h
  have snapshot : (captureAt .direct r now timestamp).1 = s := by rw [captured]
  rw [← snapshot]
  exact ⟨rfl, rfl⟩

theorem direct_ne_none {r : Recording} {now : Instant} {format : DateFormat}
    (h : direct r now format ≠ none) (p : Recording) : direct p now format ≠ none := by
  rw [direct, capture, Ne, Option.map_eq_none_iff, DateFormat.write_eq_none_iff] at h ⊢
  exact h

/-- The root of a direct capture is the build that the chain of triggers ends in: the build itself
if nothing has triggered it, else the root of the trigger's own capture. Nothing else of the
triggers is captured or told; any other chain that ends in a build of the same names gives the same
capture. -/
theorem direct_root (r : Recording) (now : Instant) (format : DateFormat) :
    (match direct r now format with
      | none => format.write r.build.scheduled = none
      | some (s, _) =>
        (∃ last, r.EndsIn last ∧ s.rootIdentity = last.identity) ∧
        match r.parent? with
        | none => s.rootIdentity = s.identity
        | some p => ∃ t events, direct p now format = some (t, events) ∧
            s.rootIdentity = t.rootIdentity) ∧
    ∀ p p' : Recording, r.parent? = some p →
      (∀ last last', p.EndsIn last → p'.EndsIn last' → last.identity = last'.identity) →
      direct (.withParent r.build (some p')) now format = direct r now format := by
  constructor
  · cases captured : direct r now format with
    | none => exact Option.map_eq_none_iff.1 captured
    | some found =>
      obtain ⟨own, root⟩ := identities_of_direct captured
      refine ⟨⟨r.root, r.endsIn_root, root⟩, ?_⟩
      cases parent : r.parent? with
      | none => exact (Recording.root_of_parent?_eq_none parent ▸ root).trans own.symm
      | some p =>
        have printed : direct r now format ≠ none := by rw [captured]; nofun
        obtain ⟨above, capturedAbove⟩ := Option.ne_none_iff_exists'.1 (direct_ne_none printed p)
        have rootAbove := (identities_of_direct capturedAbove).2
        refine ⟨above.1, above.2, capturedAbove, ?_⟩
        exact (Recording.root_of_parent?_eq_some parent ▸ root).trans rootAbove.symm
  · intro p p' parent same
    have above : (Recording.withParent r.build (some p')).parent? = some p' := rfl
    have build : (Recording.withParent r.build (some p')).build = r.build := rfl
    refine direct_congr_root build ?_ now format
    rw [Recording.root_of_parent?_eq_some above, Recording.root_of_parent?_eq_some parent]
    exact (same _ _ p.endsIn_root p'.endsIn_root).symm

def commit : Build where
  id := "40"
  project := ⟨"service", "team/service"⟩
  displayName := some "#40"
  number := 40
  startTime := ⟨1700000030, 0, by decide, by decide, by decide⟩

def stage : Build := { commit with project := ⟨"stage", "team/stage"⟩, number := 3 }

def deploy : Build := { commit with project := ⟨"deploy", "team/deploy"⟩, number := 9 }

def commitOnceDone : Build :=
  { commit with
    id := "41"
    result := some .failure
    actions := [.unknown]
    buildVariables := .ofList [("TOKEN", "s3cret")] }

/-- A stage between a build and its root, and what the root has come to, do not show. -/
theorem direct_root_behind_stage :
    (direct ⟨deploy, [commit]⟩ commit.startTime default).isSome ∧
    direct ⟨deploy, [stage, commitOnceDone]⟩ commit.startTime default =
      direct ⟨deploy, [commit]⟩ commit.startTime default := by
  refine ⟨by decide, ?_⟩
  refine (direct_root ⟨deploy, [commit]⟩ commit.startTime default).2 ⟨commit, []⟩
    ⟨stage, [commitOnceDone]⟩ rfl fun last last' ends ends' => ?_
  rw [Recording.endsIn_iff.1 ends, Recording.endsIn_iff.1 ends']
  rfl

end Snapshot

end BuildCapture
