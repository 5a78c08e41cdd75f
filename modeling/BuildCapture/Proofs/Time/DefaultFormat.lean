import BuildCapture.Proofs.Time.Order
import BuildCapture.Time.DateFormat
set_option autoImplicit false

/-!
What the default date format writes: the RFC 3339 text up to the second, three digits of a fraction
and the offset `+0000` (`DateFormat.write_default`). It is read back to the millisecond
(`Rfc3339.read_stamp`). While years have four digits all these texts have one length, so they sort
like the instants (`DateFormat.write_default_sorted`).
-/

namespace BuildCapture

namespace Pattern

theorem pairWire_zeros {n : Nat} (short : n < 100) :
    pairWire n .zeros = Numeral.padded '0' 2 n := by
  have all : ∀ n < 100, pairWire n .zeros = Numeral.padded '0' 2 n := by decide
  exact all n short

theorem yearWire_zeros (year : Int) : yearWire year .zeros = Rfc3339.yearWire year := by
  unfold yearWire Rfc3339.yearWire
  split
  case isTrue short =>
    have negative : ¬ year < 0 := by omega
    have digits : year.natAbs = year.toNat := by omega
    simp [numberWire, negative, digits]
  case isFalse =>
    unfold numberWire
    split <;> rfl

end Pattern

def Rfc3339.stamp (t : Instant) : List Char :=
  toSecond t ('.' :: (Numeral.padded '0' 3 (t.subsecond / 1000000) ++ ['+', '0', '0', '0', '0']))

theorem DateFormat.write_default (t : Instant) :
    (default : DateFormat).write t = some (String.ofList (Rfc3339.stamp t)) := by
  have month := Pattern.pairWire_zeros (Nat.lt_of_le_of_lt t.date.month_within.2 (by decide))
  have day := Pattern.pairWire_zeros (Nat.lt_of_le_of_lt t.date.day_within.2 (by decide))
  have hour := Pattern.pairWire_zeros (Nat.lt_of_le_of_lt t.hour_le (by decide))
  have minute := Pattern.pairWire_zeros (Nat.lt_of_le_of_lt t.minute_le (by decide))
  have second := Pattern.pairWire_zeros (Nat.lt_of_le_of_lt t.second_le (by decide))
  have items : (default : DateFormat).items = defaultItems := rfl
  rw [write, items]
  simp [Pattern.wire, defaultItems, Pattern.clockTime, Pattern.zeros, Pattern.itemWire,
    Pattern.quantityWire, Pattern.offsetWire, month, day, hour, minute, second,
    Pattern.yearWire_zeros, Rfc3339.stamp, Rfc3339.toSecond]

example : (default : DateFormat).write ⟨1483228799, 1999600000, by decide, by decide, by decide⟩ =
    some "2016-12-31T23:59:60.999+0000" := by decide

namespace Rfc3339

theorem readInstant_stamp (t : Instant) : readInstant (stamp t) = .ok t.wholeMillis := by
  have small : t.subsecond / 1000000 < 10 ^ 3 := by
    have bound := t.subsecond_lt
    omega
  have fraction := readFraction_padded 3 (t.subsecond / 1000000) ['+', '0', '0', '0', '0']
    (by decide) (by decide) small rfl
  have offset : readOffset ['+', '0', '0', '0', '0'] = .ok (0, []) := rfl
  have parts := resolve_parts t.wholeMillis
  simp only [Instant.date_wholeMillis, Instant.hour_wholeMillis, Instant.minute_wholeMillis,
    Instant.second_wholeMillis, Instant.subsecond_wholeMillis] at parts
  rw [stamp, readInstant_toSecond t fraction offset]
  exact parts

theorem read_stamp (t : Instant) : read (String.ofList (stamp t)) = .ok t.wholeMillis := by
  rw [read, String.toList_ofList, readInstant_stamp]

@[simp] theorem stamp_wholeMillis (t : Instant) : stamp t.wholeMillis = stamp t := by
  simp [stamp, toSecond]

theorem stamp_eq_iff {s t : Instant} : stamp s = stamp t ↔ s.wholeMillis = t.wholeMillis := by
  constructor
  · intro same
    have read := readInstant_stamp s
    rw [same, readInstant_stamp t] at read
    exact (Except.ok.inj read).symm
  · intro same
    rw [← stamp_wholeMillis s, same, stamp_wholeMillis]

theorem stamp_lt_iff {s t : Instant} (hs : 0 ≤ s.date.year ∧ s.date.year ≤ 9999)
    (ht : 0 ≤ t.date.year ∧ t.date.year ≤ 9999) :
    stamp s < stamp t ↔ s.wholeMillis < t.wholeMillis := by
  have pair {m n : Nat} (hm : m ≤ 99) (hn : n ≤ 99) (x y : List Char) :=
    Numeral.padded_append_lt_iff (by decide) (by omega : m < 10 ^ 2) (by omega : n < 10 ^ 2) x y
  have year := Numeral.padded_append_lt_iff (by decide) (by omega : s.date.year.toNat < 10 ^ 4)
    (by omega : t.date.year.toNat < 10 ^ 4)
  have month := pair (Nat.le_trans s.date.month_within.2 (by decide))
    (Nat.le_trans t.date.month_within.2 (by decide))
  have day := pair (Nat.le_trans s.date.day_within.2 (by decide))
    (Nat.le_trans t.date.day_within.2 (by decide))
  have hour := pair (Nat.le_trans s.hour_le (by decide)) (Nat.le_trans t.hour_le (by decide))
  have minute := pair (Nat.le_trans s.minute_le (by decide))
    (Nat.le_trans t.minute_le (by decide))
  have second := pair (Nat.le_trans s.second_le (by decide))
    (Nat.le_trans t.second_le (by decide))
  have millis (x y : List Char) := Numeral.padded_append_lt_iff (by decide)
    (by have := s.subsecond_lt; omega : s.subsecond / 1000000 < 10 ^ 3)
    (by have := t.subsecond_lt; omega : t.subsecond / 1000000 < 10 ^ 3) x y
  have zone : ¬ ['+', '0', '0', '0', '0'] < ['+', '0', '0', '0', '0'] := by decide
  simp only [stamp, toSecond, yearWire, if_pos hs, if_pos ht, year, month, day, hour, minute,
    second, millis, List.cons_lt_cons_self, zone, and_false, or_false]
  have before := Calendar.Date.toDays_lt_iff s.date t.date
  have behind := Calendar.Date.toDays_lt_iff t.date s.date
  rw [Instant.wholeMillis_lt_iff]
  omega

end Rfc3339

namespace DateFormat

/-- While years have four digits, the texts of the default format are in the order of the instants
that they show. -/
theorem write_default_sorted (s t : Instant) (hs : 0 ≤ s.date.year ∧ s.date.year ≤ 9999)
    (ht : 0 ≤ t.date.year ∧ t.date.year ≤ 9999) :
    ∃ a b, (default : DateFormat).write s = some a ∧ (default : DateFormat).write t = some b ∧
      (a < b ↔ s.wholeMillis < t.wholeMillis) ∧ (a = b ↔ s.wholeMillis = t.wholeMillis) ∧
      (b < a ↔ t.wholeMillis < s.wholeMillis) := by
  refine ⟨_, _, write_default s, write_default t, ?_, ?_, ?_⟩
  · rw [String.lt_iff, String.toList_ofList, String.toList_ofList, Rfc3339.stamp_lt_iff hs ht]
  · rw [String.ofList_inj, Rfc3339.stamp_eq_iff]
  · rw [String.lt_iff, String.toList_ofList, String.toList_ofList, Rfc3339.stamp_lt_iff ht hs]

/-- Between the last moment of the leap second of 2016 and the first one of 2017. -/
theorem newYear_sorted :
    let s : Instant := ⟨1483228799, 1999600000, by decide, by decide, by decide⟩
    let t : Instant := ⟨1483228800, 0, by decide, by decide, by decide⟩
    (0 ≤ s.date.year ∧ s.date.year ≤ 9999) ∧ (0 ≤ t.date.year ∧ t.date.year ≤ 9999) ∧
      ∃ a b, (default : DateFormat).write s = some a ∧ (default : DateFormat).write t = some b ∧
        a < b ∧ a ≠ b ∧ ¬ b < a := by
  intro s t
  have hs : 0 ≤ s.date.year ∧ s.date.year ≤ 9999 := by decide
  have ht : 0 ≤ t.date.year ∧ t.date.year ≤ 9999 := by decide
  obtain ⟨a, b, shown, shown', before, same, behind⟩ := write_default_sorted s t hs ht
  exact ⟨hs, ht, a, b, shown, shown', before.2 (by decide), mt same.1 (by decide),
    mt behind.1 (by decide)⟩

end DateFormat

end BuildCapture
