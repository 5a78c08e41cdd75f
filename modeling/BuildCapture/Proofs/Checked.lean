set_option autoImplicit false

namespace BuildCapture

section
variable {ε δ α β γ : Type}

theorem bind_eq_ok_iff {x : Except ε α} {f : α → Except ε β} {b : β} :
    x >>= f = .ok b ↔ ∃ a, x = .ok a ∧ f a = .ok b := by
  cases x <;> simp [bind, Except.bind]

theorem bind_eq_error_iff {x : Except ε α} {f : α → Except ε β} {e : ε} :
    x >>= f = .error e ↔ x = .error e ∨ ∃ a, x = .ok a ∧ f a = .error e := by
  cases x <;> simp [bind, Except.bind]

theorem map_eq_ok_iff {x : Except ε α} {f : α → β} {b : β} :
    x.map f = .ok b ↔ ∃ a, x = .ok a ∧ f a = b := by
  cases x <;> simp [Except.map]

@[simp] theorem mapError_ok (f : ε → δ) (a : α) :
    (Except.ok a : Except ε α).mapError f = .ok a := rfl

theorem mapError_eq_ok_iff {f : ε → δ} {x : Except ε α} {a : α} :
    x.mapError f = .ok a ↔ x = .ok a := by
  constructor
  · intro h
    cases x with
    | error e => cases h
    | ok _ => exact congrArg Except.ok (Except.ok.inj h)
  · intro h
    rw [h]
    rfl

theorem mapError_eq_error_iff {f : ε → δ} {x : Except ε α} {d : δ} :
    x.mapError f = .error d ↔ ∃ e, x = .error e ∧ f e = d := by
  constructor
  · intro h
    cases x with
    | error e => exact ⟨e, rfl, Except.error.inj h⟩
    | ok _ => cases h
  · intro ⟨e, h, same⟩
    rw [h, ← same]
    rfl

variable {f : γ → Except ε α}

theorem exists_mapM_iff {l : List γ} :
    (∃ as, l.mapM f = .ok as) ↔ ∀ x ∈ l, ∃ a, f x = .ok a := by
  induction l with
  | nil => simp [pure, Except.pure]
  | cons x l ih =>
    rw [List.forall_mem_cons, ← ih, List.mapM_cons]
    constructor
    · intro ⟨as, h⟩
      obtain ⟨a, first, h⟩ := bind_eq_ok_iff.1 h
      obtain ⟨others, later, -⟩ := bind_eq_ok_iff.1 h
      exact ⟨⟨a, first⟩, others, later⟩
    · intro ⟨⟨a, first⟩, others, later⟩
      rw [first, later]
      exact ⟨_, rfl⟩

theorem mem_iff_of_mapM {l : List γ} {as : List α} (h : l.mapM f = .ok as) {a : α} :
    a ∈ as ↔ ∃ x ∈ l, f x = .ok a := by
  induction l generalizing as with
  | nil =>
    cases h
    simp
  | cons x l ih =>
    rw [List.mapM_cons] at h
    obtain ⟨b, first, h⟩ := bind_eq_ok_iff.1 h
    obtain ⟨others, later, same⟩ := bind_eq_ok_iff.1 h
    cases same
    simp [ih later, first, eq_comm]

theorem exists_mapM_of_mem_iff {l l' : List γ} (same : ∀ x, x ∈ l' ↔ x ∈ l) {as : List α}
    (h : l.mapM f = .ok as) : ∃ as', l'.mapM f = .ok as' ∧ ∀ a, a ∈ as' ↔ a ∈ as := by
  obtain ⟨as', h'⟩ := exists_mapM_iff.2 fun x hx =>
    exists_mapM_iff.1 ⟨as, h⟩ x ((same x).1 hx)
  refine ⟨as', h', fun a => ?_⟩
  simp only [mem_iff_of_mapM h, mem_iff_of_mapM h', same]

end

end BuildCapture
