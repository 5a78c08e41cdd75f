set_option autoImplicit false

namespace BuildCapture

structure Slot (α : Type) where
  get : Option α := none
  deriving DecidableEq, Repr

namespace Slot

variable {α : Type}

def empty : Slot α := {}

def isSet (s : Slot α) : Bool := s.get.isSome

/-- The slot after `produce` had its chance, and whether that filled it. A slot that holds a value
does not run `produce`. -/
def fillWith (s : Slot α) (produce : Unit → Option α) : Slot α × Bool :=
  match s.get with
  | some _ => (s, false)
  | none => let value := produce (); (⟨value⟩, value.isSome)

@[simp] theorem get_fillWith (s : Slot α) (produce : Unit → Option α) :
    (s.fillWith produce).1.get = s.get.or (produce ()) := by
  unfold fillWith; split <;> simp_all

theorem fillWith_fst (s : Slot α) (produce : Unit → Option α) :
    (s.fillWith produce).1 = ⟨s.get.or (produce ())⟩ := congrArg Slot.mk (get_fillWith s produce)

/-- A slot is filled exactly when it goes from empty to set. -/
theorem filled_fillWith (s : Slot α) (produce : Unit → Option α) :
    (s.fillWith produce).2 = (!s.isSet && (s.fillWith produce).1.isSet) := by
  unfold fillWith isSet; split <;> simp_all

/-- The same for a producer that has effects besides its value: those come about only if it runs. -/
def fillWithM {m : Type → Type} [Monad m] (s : Slot α) (produce : m (Option α)) :
    m (Slot α × Bool) :=
  match s.get with
  | some _ => pure (s, false)
  | none => do
    let value ← produce
    return (⟨value⟩, value.isSome)

/-- In a world that the producer may change, the slot is filled with the value produced there. -/
theorem fillWithM_run {ω : Type} (s : Slot α) (produce : StateM ω (Option α)) (w : ω) :
    (s.fillWithM produce).run w =
      (s.fillWith fun _ => (produce.run w).1, if s.isSet then w else (produce.run w).2) := by
  obtain ⟨_ | value⟩ := s
  · rfl
  · rfl

def fill (s : Slot α) (value : α) : Slot α × Bool := s.fillWith fun _ => some value

def replace (s : Slot α) (value : Option α) : Slot α × Option α := (⟨value⟩, s.get)

end Slot

end BuildCapture
