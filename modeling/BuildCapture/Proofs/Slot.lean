import BuildCapture.Proofs.WriteOnce
import BuildCapture.Slot
set_option autoImplicit false

/-!
Runs of calls on one slot. The first write wins until the next `replace`, whatever the calls are,
and the answers tell which call it was (`Slot.run_writes_once`). Producers may look at the world and
change it, so the world tells which of them have run.
-/

namespace BuildCapture.Slot

variable {ω α : Type}

inductive Call (ω α : Type) where
  | fill (value : α)
  | fillWith (produce : StateM ω (Option α))
  | replace (content : Option α)

inductive Answer (α : Type) where
  | filled (stored : Bool)
  | replaced (previous : Option α)
  deriving DecidableEq

def Call.perform (s : Slot α) : Call ω α → StateM ω (Slot α × Answer α)
  | .fill value => let (s, stored) := s.fill value; return (s, .filled stored)
  | .fillWith produce => do
    let (s, stored) ← s.fillWithM produce
    return (s, .filled stored)
  | .replace content => let (s, previous) := s.replace content; return (s, .replaced previous)

theorem Call.perform_fillWith (s : Slot α) (produce : StateM ω (Option α)) (w : ω) :
    (Call.fillWith produce).perform s w =
      let (filled, stored) := s.fillWith fun _ => (produce w).1
      ((filled, .filled stored), if s.isSet then w else (produce w).2) :=
  congrArg (fun r : (Slot α × Bool) × ω => ((r.1.1, Answer.filled r.1.2), r.2))
    (fillWithM_run s produce w)

/-- A call, with the slot and the world that it meets. -/
structure Moment (ω α : Type) where
  slot : Slot α
  world : ω
  call : Call ω α

namespace Moment

def slotAfter (m : Moment ω α) : Slot α := (m.call.perform m.slot m.world).1.1

def answer (m : Moment ω α) : Answer α := (m.call.perform m.slot m.world).1.2

def worldAfter (m : Moment ω α) : ω := (m.call.perform m.slot m.world).2

/-- What the call puts into the slot whatever is in it. -/
def content? (m : Moment ω α) : Option (Option α) :=
  match m.call with
  | .replace content => some content
  | .fill _ | .fillWith _ => none

/-- What the call has to put into an empty slot. -/
def offer? (m : Moment ω α) : Option α :=
  match m.call with
  | .fill value => some value
  | .fillWith produce => (produce m.world).1
  | .replace _ => none

def fills (m : Moment ω α) : Bool :=
  match m.answer with
  | .filled stored => stored
  | .replaced _ => false

theorem get_slotAfter (m : Moment ω α) :
    m.slotAfter.get = m.content?.getD (m.slot.get.or m.offer?) := by
  obtain ⟨s, w, call⟩ := m
  cases call with
  | fill value => exact get_fillWith s fun _ => some value
  | fillWith produce =>
    simp only [slotAfter, Call.perform_fillWith]
    exact get_fillWith s _
  | replace content => rfl

theorem answer_eq (m : Moment ω α) :
    m.answer =
      match m.call with
      | .fill _ | .fillWith _ => .filled (!m.slot.isSet && m.slotAfter.isSet)
      | .replace _ => .replaced m.slot.get := by
  obtain ⟨s, w, call⟩ := m
  cases call with
  | fill value => exact congrArg Answer.filled (filled_fillWith s fun _ => some value)
  | fillWith produce =>
    simp only [answer, slotAfter, Call.perform_fillWith]
    exact congrArg Answer.filled (filled_fillWith s _)
  | replace content => rfl

theorem worldAfter_eq (m : Moment ω α) :
    m.worldAfter =
      match m.call with
      | .fillWith produce => if m.slot.isSet then m.world else (produce m.world).2
      | .fill _ | .replace _ => m.world := by
  obtain ⟨s, w, call⟩ := m
  cases call with
  | fill value => rfl
  | fillWith produce => simp only [worldAfter, Call.perform_fillWith]
  | replace content => rfl

/-- A call that does not overwrite the slot fills it if it goes from empty to set. -/
theorem fills_eq {m : Moment ω α} (kept : m.content? = none) :
    m.fills.toNat + m.slot.isSet.toNat = m.slotAfter.isSet.toNat := by
  have after : m.slotAfter.isSet = (m.slot.isSet || m.offer?.isSome) := by
    rw [isSet, get_slotAfter, kept, Option.getD_none, Option.isSome_or]
    rfl
  have flag : m.fills = (!m.slot.isSet && m.slotAfter.isSet) := by
    rw [fills, answer_eq]
    revert kept
    unfold content?
    cases m.call <;> simp
  rw [flag, after]
  cases m.slot.isSet <;> simp

end Moment

/-- A run of calls: the slot that it leaves, and its moments in their order. -/
def run (s : Slot α) (w : ω) : List (Call ω α) → Slot α × List (Moment ω α)
  | [] => (s, [])
  | call :: rest =>
    let m : Moment ω α := ⟨s, w, call⟩
    let (last, later) := run m.slotAfter m.worldAfter rest
    (last, m :: later)

section
variable {s : Slot α} {w : ω} {calls : List (Call ω α)} {l : List (Moment ω α)}

/-- What a run leaves can be told from its calls and their worlds, without the slots between. -/
theorem run_fst : (run s w calls).1 =
    (run s w calls).2.foldl (fun s m => ({ m with slot := s } : Moment ω α).slotAfter) s := by
  induction calls generalizing s w with
  | nil => rfl
  | cons call rest ih => exact ih

theorem moment_step : WriteOnce.Step (fun s : Slot α => s.get)
    (fun s m => ({ m with slot := s } : Moment ω α).slotAfter) Moment.content? Moment.offer? :=
  fun s m => Moment.get_slotAfter { m with slot := s }

theorem run_snd_of_prefix (h : l <+: (run s w calls).2) :
    (run s w (l.map Moment.call)).2 = l := by
  induction l generalizing s w calls with
  | nil => rfl
  | cons m l ih =>
    cases calls with
    | nil => cases List.prefix_nil.1 h
    | cons call rest =>
      obtain ⟨rfl, more⟩ := List.cons_prefix_cons.1 h
      exact congrArg (List.cons _) (ih more)

theorem exists_run_of_infix (h : l <:+: (run s w calls).2) :
    ∃ s' w' calls', (run s' w' calls').2 = l := by
  induction calls generalizing s w with
  | nil => exact ⟨s, w, [], (List.infix_nil.1 h).symm⟩
  | cons call rest ih =>
    rcases List.infix_cons_iff.1 h with first | later
    · have shorter : l <+: (run s w (call :: rest)).2 := first
      exact ⟨s, w, _, run_snd_of_prefix shorter⟩
    · exact ih later

theorem countP_fills (kept : ∀ m ∈ (run s w calls).2, m.content? = none) :
    (run s w calls).2.countP Moment.fills + s.isSet.toNat = (run s w calls).1.isSet.toNat := by
  induction calls generalizing s w with
  | nil => exact Nat.zero_add _
  | cons call rest ih =>
    let m : Moment ω α := ⟨s, w, call⟩
    have ⟨first, later⟩ := List.forall_mem_cons.1 kept
    have step : m.fills.toNat + s.isSet.toNat = m.slotAfter.isSet.toNat := Moment.fills_eq first
    have more : (run m.slotAfter m.worldAfter rest).2.countP Moment.fills +
        m.slotAfter.isSet.toNat = (run m.slotAfter m.worldAfter rest).1.isSet.toNat := ih later
    have flag : (if m.fills then 1 else 0) = m.fills.toNat := by cases m.fills <;> rfl
    show (m :: (run m.slotAfter m.worldAfter rest).2).countP Moment.fills + s.isSet.toNat =
      (run m.slotAfter m.worldAfter rest).1.isSet.toNat
    rw [List.countP_cons, flag, ← more, ← step, Nat.add_assoc]

end

/-- A slot is written once until it is overwritten. A run leaves what the last `replace` put into
the slot, or what was in it at first if there was none; and if that is nothing, the first value that
a call had to offer since. A call that fills answers whether the slot went from empty to set, and so
at most one of them does between two calls of `replace`; a `replace` answers what was in the slot.
A producer runs if the slot is empty, and only then does anything in the world change. -/
theorem run_writes_once (s : Slot α) (w : ω) (calls : List (Call ω α)) :
    (run s w calls).1.get =
      ((WriteOnce.lastReset Moment.content? (run s w calls).2).getD s.get).or
        ((WriteOnce.sinceReset Moment.content? (run s w calls).2).findSome? Moment.offer?) ∧
    (∀ m ∈ (run s w calls).2,
      m.answer = (match m.call with
        | .fill _ | .fillWith _ => .filled (!m.slot.isSet && m.slotAfter.isSet)
        | .replace _ => .replaced m.slot.get) ∧
      m.worldAfter = (match m.call with
        | .fillWith produce => if m.slot.isSet then m.world else (produce m.world).2
        | .fill _ | .replace _ => m.world)) ∧
    ∀ stretch, stretch <:+: (run s w calls).2 → (∀ m ∈ stretch, m.content? = none) →
      stretch.countP Moment.fills ≤ 1 := by
  refine ⟨?content, fun m _ => ⟨m.answer_eq, m.worldAfter_eq⟩, ?once⟩
  case content =>
    rw [run_fst]
    exact WriteOnce.view_foldl moment_step s _
  case once =>
    intro stretch part kept
    obtain ⟨s', w', calls', rfl⟩ := exists_run_of_infix part
    calc
      (run s' w' calls').2.countP Moment.fills
        ≤ (run s' w' calls').2.countP Moment.fills + s'.isSet.toNat := Nat.le_add_right _ _
      _ = (run s' w' calls').1.isSet.toNat := countP_fills kept
      _ ≤ 1 := Bool.toNat_le _

def asked (name : String) (value : Option Nat) : StateM (List String) (Option Nat) :=
  fun names => (value, names ++ [name])

/-- Of three producers the first one has no value, and the last one is not asked. -/
def reopened : List (Call (List String) Nat) :=
  [.fillWith (asked "none" none), .fillWith (asked "first" (some 3)),
    .fillWith (asked "late" (some 4)), .replace none, .fill 5, .fill 6]

def passedOver : Moment (List String) Nat :=
  ⟨⟨some 3⟩, ["none", "first"], .fillWith (asked "late" (some 4))⟩

theorem reopened_writes_once :
    (run .empty [] reopened).1.get = some 5 ∧
    (passedOver.answer = .filled false ∧ passedOver.worldAfter = ["none", "first"]) ∧
    ((run .empty [] reopened).2.drop 4).countP Moment.fills ≤ 1 := by
  have ⟨content, calls, once⟩ := run_writes_once .empty [] reopened
  have mem : passedOver ∈ (run .empty [] reopened).2 := List.mem_of_getElem? (i := 2) rfl
  have kept : ∀ m ∈ (run .empty [] reopened).2.drop 4, m.content? = none := by decide
  exact ⟨content.trans (by decide), calls passedOver mem,
    once _ (List.drop_suffix 4 _).isInfix kept⟩

end BuildCapture.Slot
