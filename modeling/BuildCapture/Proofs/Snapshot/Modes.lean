import BuildCapture.Proofs.Snapshot.Root
import BuildCapture.Proofs.Snapshot.Variables
set_option autoImplicit false

namespace BuildCapture

namespace Snapshot

def withContextOf (s t : Snapshot) : Snapshot :=
  { s with
    rootProjectName := t.rootProjectName
    rootFullProjectName := t.rootFullProjectName
    rootProjectDisplayName := t.rootProjectDisplayName
    rootBuildNum := t.rootBuildNum
    buildVariables := t.buildVariables }

theorem withContextOf_self {s t : Snapshot} (root : s.rootIdentity = t.rootIdentity)
    (vars : s.buildVariables = t.buildVariables) : s.withContextOf t = s := by
  obtain ⟨name, fullName, displayName, number⟩ := Identity.mk.inj root
  rw [withContextOf, ← name, ← fullName, ← displayName, ← number, ← vars]

theorem captureAt_withContextOf (r : Recording) (now : Instant) (timestamp : String) :
    (captureAt .direct r now timestamp).1.withContextOf (captureAt .delegated r now timestamp).1 =
      (captureAt .delegated r now timestamp).1 := rfl

theorem allVariables_delegated (b : Build) :
    (allVariables .delegated b).1 = b.environment.getD ∅ := by
  cases h : b.environment <;> simp [allVariables, Build.resolveEnvironment, h]

/-- The environment goes over all other variables, and both modes withhold the same names after
that; so no variable of a delegated capture is lost or changed in a direct one. -/
theorem get?_captureAt_direct {r : Recording} {now : Instant} {timestamp name value : String}
    (h : (captureAt .delegated r now timestamp).1.buildVariables.get? name = some value) :
    (captureAt .direct r now timestamp).1.buildVariables.get? name = some value := by
  rw [captureAt_buildVariables, NameMap.get?_without, allVariables_delegated] at h
  rw [captureAt_buildVariables, NameMap.get?_without, get?_allVariables_direct]
  split at h
  case isTrue => cases h
  case isFalse shown =>
    rw [if_neg shown, h]
    rfl

/-- A build whose variables are all in its environment. -/
structure OnlyEnvironment (b : Build) : Prop where
  declared : b.buildVariables = ∅
  contributed : ∀ c, some c ∈ b.environments → c.vars = ∅

theorem OnlyEnvironment.lastContributed? {b : Build} (h : OnlyEnvironment b) (name : String) :
    b.lastContributed? name = none := by
  refine List.findSome?_eq_none_iff.2 fun place mem => ?_
  cases place with
  | none => rfl
  | some c =>
    show c.vars.get? name = none
    rw [h.contributed c (List.mem_reverse.1 mem)]
    rfl

theorem OnlyEnvironment.allVariables_eq {b : Build} (h : OnlyEnvironment b) :
    (allVariables .direct b).1 = (allVariables .delegated b).1 := by
  refine NameMap.ext_get? fun name => ?_
  rw [get?_allVariables_direct, allVariables_delegated, h.lastContributed? name, h.declared]
  exact Option.or_none

theorem captureAt_direct_eq_delegated {r : Recording} (top : r.parent? = none)
    (h : OnlyEnvironment r.build) (now : Instant) (timestamp : String) :
    (captureAt .direct r now timestamp).1 = (captureAt .delegated r now timestamp).1 := by
  have root : (captureAt .direct r now timestamp).1.rootIdentity =
      (captureAt .delegated r now timestamp).1.rootIdentity :=
    congrArg Build.identity (Recording.root_of_parent?_eq_none top)
  have vars : (captureAt .direct r now timestamp).1.buildVariables =
      (captureAt .delegated r now timestamp).1.buildVariables := by
    rw [captureAt_buildVariables, captureAt_buildVariables, h.allVariables_eq]
  exact (withContextOf_self root vars).symm.trans (captureAt_withContextOf r now timestamp)

/-- Both modes capture or neither does. What they capture is the same but for the root and the
variables; every variable of the delegated capture is in the direct one; and nothing differs where
nothing has triggered the build and it has no variables outside its environment, be that available
or not. -/
theorem direct_delegated_agree (r : Recording) (now : Instant) (format : DateFormat) :
    match direct r now format, delegated r now format with
    | some (s, _), some (t, _) =>
      s.withContextOf t = t ∧
      (∀ name value, t.buildVariables.get? name = some value →
        s.buildVariables.get? name = some value) ∧
      (r.parent? = none → r.build.buildVariables = ∅ →
        (∀ c, some c ∈ r.build.environments → c.vars = ∅) → s = t)
    | none, none => format.write r.build.scheduled = none
    | _, _ => False := by
  rw [direct, delegated, capture, capture]
  cases printed : format.write r.build.scheduled with
  | none => rfl
  | some timestamp =>
    rw [Option.map_some, Option.map_some]
    refine ⟨captureAt_withContextOf r now timestamp, fun _ _ => get?_captureAt_direct, ?_⟩
    exact fun top declared contributed =>
      captureAt_direct_eq_delegated top ⟨declared, contributed⟩ now timestamp

end Snapshot

end BuildCapture
