import BuildCapture.Text.Numeral
import Mathlib.Algebra.Group.Nat.Defs
set_option autoImplicit false

namespace BuildCapture.Numeral

theorem value_padded (width n : Nat) : value (padded '0' width n) = n := by
  rw [value, padded, List.leftpad, Nat.ofDigitChars_append, Nat.ofDigitChars_replicate_zero,
    Nat.mul_zero]
  exact value_toDigits n

theorem length_padded {width n : Nat} (wide : 0 < width) (h : n < 10 ^ width) :
    (padded '0' width n).length = width := by
  have short := (Nat.length_toDigits_le_iff (by decide) wide).2 h
  rw [padded, List.leftpad, List.length_append, List.length_replicate]
  omega

theorem padded_ne_nil (width n : Nat) : padded '0' width n ≠ [] := by
  simp [padded, List.leftpad]

theorem padded_inj {width m n : Nat} : padded '0' width m = padded '0' width n ↔ m = n := by
  constructor
  · intro same
    rw [← value_padded width m, same, value_padded]
  · rintro rfl
    rfl

theorem value_cons (c : Char) (digits : List Char) :
    value (c :: digits) = 10 ^ digits.length * (c.toNat - '0'.toNat) + value digits := by
  rw [value, Nat.ofDigitChars_cons, Nat.ofDigitChars_eq_ofDigitChars_zero, Nat.mul_zero,
    Nat.zero_add]
  rfl

theorem value_lt {digits : List Char} (h : ∀ c ∈ digits, c.isDigit) :
    value digits < 10 ^ digits.length := by
  induction digits with
  | nil => decide
  | cons c digits ih =>
    obtain ⟨digit, others⟩ := List.forall_mem_cons.1 h
    have most : c.toNat - '0'.toNat ≤ 9 := by
      have last : c.toNat ≤ '9'.toNat := (Char.isDigit_iff_toNat.1 digit).2
      have nine : '9'.toNat - '0'.toNat = 9 := rfl
      omega
    have first := Nat.mul_le_mul_left (10 ^ digits.length) most
    have rest := ih others
    rw [value_cons, List.length_cons, Nat.pow_succ]
    omega

theorem mul_add_lt_mul_add_iff {unit x y m n : Nat} (hm : m < unit) (hn : n < unit) :
    unit * x + m < unit * y + n ↔ x < y ∨ x = y ∧ m < n := by
  rcases Nat.lt_trichotomy x y with before | same | behind
  · have gap := Nat.mul_le_mul_left unit (Nat.succ_le_of_lt before)
    rw [Nat.mul_succ] at gap
    omega
  · subst same
    omega
  · have gap := Nat.mul_le_mul_left unit (Nat.succ_le_of_lt behind)
    rw [Nat.mul_succ] at gap
    omega

theorem lt_iff_value_lt {a b : List Char} (ha : ∀ c ∈ a, c.isDigit) (hb : ∀ c ∈ b, c.isDigit)
    (same : a.length = b.length) : a < b ↔ value a < value b := by
  induction a generalizing b with
  | nil =>
    obtain rfl : b = [] := List.eq_nil_of_length_eq_zero same.symm
    simp
  | cons c a ih =>
    cases b with
    | nil => cases same
    | cons d b =>
      obtain ⟨first, ha⟩ := List.forall_mem_cons.1 ha
      obtain ⟨first', hb⟩ := List.forall_mem_cons.1 hb
      have same : a.length = b.length := Nat.succ_inj.1 same
      have below := value_lt ha
      rw [same] at below
      have zero : '0'.toNat = 48 := rfl
      have digit := Char.isDigit_iff_toNat.1 first
      have digit' := Char.isDigit_iff_toNat.1 first'
      have order : c < d ↔ c.toNat < d.toNat := Iff.rfl
      rw [List.cons_lt_cons_iff, ih ha hb same, value_cons, value_cons, same,
        mul_add_lt_mul_add_iff below (value_lt hb), order, ← Char.toNat_inj]
      omega

theorem append_lt_append_iff {a b x y : List Char} (same : a.length = b.length) :
    a ++ x < b ++ y ↔ a < b ∨ a = b ∧ x < y := by
  induction a generalizing b with
  | nil =>
    obtain rfl : b = [] := List.eq_nil_of_length_eq_zero same.symm
    simp
  | cons c a ih =>
    cases b with
    | nil => cases same
    | cons d b =>
      have same : a.length = b.length := Nat.succ_inj.1 same
      rw [List.cons_append, List.cons_append, List.cons_lt_cons_iff, List.cons_lt_cons_iff, ih same,
        List.cons.injEq, and_or_left, or_assoc, and_assoc]

theorem padded_append_lt_iff {width m n : Nat} (wide : 0 < width) (hm : m < 10 ^ width)
    (hn : n < 10 ^ width) (x y : List Char) :
    padded '0' width m ++ x < padded '0' width n ++ y ↔ m < n ∨ m = n ∧ x < y := by
  have same : (padded '0' width m).length = (padded '0' width n).length := by
    rw [length_padded wide hm, length_padded wide hn]
  rw [append_lt_append_iff same, padded_inj, lt_iff_value_lt (fun _ => isDigit_of_mem_padded)
    (fun _ => isDigit_of_mem_padded) same, value_padded, value_padded]

end BuildCapture.Numeral
