import Mathlib.Data.List.Induction
import Mathlib.Data.List.TakeWhile
set_option autoImplicit false

/-!
The law of write-once state, over runs of any length. A step either resets the state to a given
content or offers a value that is taken if the state is empty. What a run leaves
(`view_foldl`) is then told from its last reset and the first offer since.
-/

namespace BuildCapture.WriteOnce

section
variable {σ ι α : Type} (view : σ → Option α) (step : σ → ι → σ) (resets : ι → Option (Option α))
  (offers : ι → Option α)

def lastReset (steps : List ι) : Option (Option α) := steps.reverse.findSome? resets

def sinceReset (steps : List ι) : List ι :=
  (steps.reverse.takeWhile fun i => (resets i).isNone).reverse

theorem lastReset_concat (steps : List ι) (i : ι) :
    lastReset resets (steps ++ [i]) = (resets i).or (lastReset resets steps) := by
  simp only [lastReset, List.reverse_append, List.reverse_singleton, List.singleton_append,
    List.findSome?_cons]
  cases resets i <;> rfl

theorem sinceReset_concat (steps : List ι) (i : ι) :
    sinceReset resets (steps ++ [i]) =
      if (resets i).isNone then sinceReset resets steps ++ [i] else [] := by
  simp only [sinceReset, List.reverse_append, List.reverse_singleton, List.singleton_append,
    List.takeWhile_cons]
  split <;> simp

theorem sinceReset_of_no_reset {steps : List ι} (h : ∀ i ∈ steps, resets i = none) :
    sinceReset resets steps = steps := by
  rw [sinceReset, List.takeWhile_eq_self_iff.2 (by simpa using h), List.reverse_reverse]

theorem lastReset_of_no_reset {steps : List ι} (h : ∀ i ∈ steps, resets i = none) :
    lastReset resets steps = none := by
  rw [lastReset, List.findSome?_eq_none_iff]
  simpa using h

/-- A step keeps what is there unless it resets it, and fills what is empty with what it offers. -/
def Step : Prop :=
  ∀ s i, view (step s i) = (resets i).getD ((view s).or (offers i))

variable {view step resets offers}

/-- After a run stands what the last reset left or else what was there at first; and if that is
nothing, the first value offered since. -/
theorem view_foldl (h : Step view step resets offers) (s : σ) (steps : List ι) :
    view (steps.foldl step s) =
      ((lastReset resets steps).getD (view s)).or ((sinceReset resets steps).findSome? offers) := by
  induction steps using List.reverseRecOn with
  | nil => simp [lastReset, sinceReset]
  | append_singleton steps i ih =>
    rw [List.foldl_append, List.foldl_cons, List.foldl_nil, h, ih, lastReset_concat,
      sinceReset_concat]
    -- A reset starts the law anew; any other step only adds its offer to those since the last one.
    cases reset : resets i with
    | none =>
      simp only [Option.isNone_none, if_true, Option.getD_none, Option.none_or,
        List.findSome?_append, List.findSome?_singleton, Option.or_assoc]
    | some content => simp

end

end BuildCapture.WriteOnce
