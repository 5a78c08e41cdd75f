set_option autoImplicit false

namespace BuildCapture.Numeral

/-- Writes `n` in decimal, filled on the left with `fill` up to `width` characters. -/
def padded (fill : Char) (width n : Nat) : List Char := (Nat.toDigits 10 n).leftpad width fill

def ofInt (n : Int) : List Char :=
  if n < 0 then '-' :: Nat.toDigits 10 n.natAbs else Nat.toDigits 10 n.natAbs

def value (digits : List Char) : Nat := Nat.ofDigitChars 10 digits 0

@[simp] theorem value_toDigits (n : Nat) : value (Nat.toDigits 10 n) = n :=
  Nat.ofDigitChars_toDigits (by omega) (by omega)

theorem isDigit_of_mem_padded {width n : Nat} {c : Char} (h : c ∈ padded '0' width n) :
    c.isDigit := by
  simp only [padded, List.leftpad, List.mem_append, List.mem_replicate] at h
  rcases h with ⟨_, rfl⟩ | h
  · decide
  · exact Nat.isDigit_of_mem_toDigits (by omega) (by omega) h

end BuildCapture.Numeral
