import BuildCapture.Proofs.Text.Numeral
import BuildCapture.Time.Rfc3339.Reader
import BuildCapture.Time.Rfc3339.Writer
set_option autoImplicit false

namespace BuildCapture

namespace Calendar

theorem split_lt {spans : List Nat} {n : Nat} (h : n < total spans) :
    ∃ span, spans[(split spans n).1]? = some span ∧ (split spans n).2 < span := by
  induction spans generalizing n with
  | nil => cases h
  | cons span rest ih =>
    by_cases first : n < span
    · exact ⟨span, by simp [split, first], by simp [split, first]⟩
    · have later : n - span < total rest := by
        simp only [total, List.foldr_cons] at h ⊢
        omega
      simpa [split, first] using ih later

namespace Date

theorem exists_monthLength (d : Date) :
    ∃ length, (monthLengths (isLeap d.year))[d.month - 1]? = some length ∧ d.day ≤ length :=
  split_lt (total_monthLengths d.year ▸ d.ordinal_lt)

theorem month_within (d : Date) : 1 ≤ d.month ∧ d.month ≤ 12 := by
  obtain ⟨length, found, -⟩ := d.exists_monthLength
  obtain ⟨inside, -⟩ := List.getElem?_eq_some_iff.1 found
  have months : (monthLengths (isLeap d.year)).length = 12 := rfl
  have first : 1 ≤ d.month := Nat.succ_pos _
  omega

theorem day_within (d : Date) : 1 ≤ d.day ∧ d.day ≤ 31 := by
  obtain ⟨length, found, within⟩ := d.exists_monthLength
  have longest : ∀ leap, ∀ length ∈ monthLengths leap, length ≤ 31 := by decide
  exact ⟨Nat.succ_pos _, Nat.le_trans within (longest _ _ (List.mem_of_getElem? found))⟩

theorem ofYearMonthDay?_month_day (d : Date) :
    ofYearMonthDay? d.year d.month d.day = some d := by
  obtain ⟨length, found, within⟩ := d.exists_monthLength
  have ordinal : total ((monthLengths (isLeap d.year)).take (d.month - 1)) + (d.day - 1) =
      d.ordinal := total_take_split (monthLengths (isLeap d.year)) d.ordinal
  simp only [ofYearMonthDay?, found, ordinal]
  rw [dif_pos d.ordinal_lt, if_pos ⟨d.month_within.1, d.day_within.1, within⟩]

end Date

end Calendar

namespace Rfc3339

theorem takeWhile_padded (width n : Nat) {more : List Char}
    (ends : more.takeWhile Char.isDigit = []) :
    (Numeral.padded '0' width n ++ more).takeWhile Char.isDigit = Numeral.padded '0' width n := by
  rw [List.takeWhile_append_of_pos fun c mem => Numeral.isDigit_of_mem_padded mem, ends,
    List.append_nil]

theorem readDigits_padded {width n : Nat} {more : List Char} (rest : List Char)
    (small : n < 9223372036854775808) (ends : more.takeWhile Char.isDigit = []) :
    readDigits (Numeral.padded '0' width n ++ more) (Numeral.padded '0' width n ++ rest) =
      .ok (n, rest) := by
  have most : (n : Int) ≤ Int64.maxValue.toInt := by
    have max : Int64.maxValue.toInt = 9223372036854775807 := by decide
    omega
  unfold readDigits
  rw [takeWhile_padded width n ends]
  split
  case h_1 none => exact absurd none (Numeral.padded_ne_nil width n)
  case h_2 => simp [most, Numeral.value_padded]

theorem head_padded (width n : Nat) :
    ∃ c digits, Numeral.padded '0' width n = c :: digits ∧ Text.isBlank c = false ∧
      c ≠ '-' ∧ c ≠ '+' := by
  obtain ⟨c, digits, shown⟩ := List.exists_cons_of_ne_nil (Numeral.padded_ne_nil width n)
  have digit : c.isDigit = true :=
    Numeral.isDigit_of_mem_padded (shown ▸ List.mem_cons_self : c ∈ Numeral.padded '0' width n)
  refine ⟨c, digits, shown, ?_, ?_, ?_⟩
  · have first : '0'.toNat = 48 := rfl
    have last : '9'.toNat = 57 := rfl
    rw [Char.isDigit_iff_toNat] at digit
    simp [Text.isBlank, Text.blankRanges]
    omega
  · rintro rfl
    cases digit
  · rintro rfl
    cases digit

theorem dropBlank_padded (width n : Nat) (rest : List Char) :
    Text.dropBlank (Numeral.padded '0' width n ++ rest) = Numeral.padded '0' width n ++ rest := by
  obtain ⟨c, digits, shown, blank, -⟩ := head_padded width n
  simp [shown, Text.dropBlank, blank]

theorem readMark_cons {mark : Char} (shown : Text.isBlank mark = false) (rest : List Char) :
    readMark mark (mark :: rest) = .ok rest := by
  simp [readMark, Text.dropBlank, shown]

theorem readField_padded {low high n : Nat} (rest : List Char) (within : low ≤ n ∧ n ≤ high)
    (short : high < 100) : readField low high (Numeral.padded '0' 2 n ++ rest) = .ok (n, rest) := by
  have window : (Numeral.padded '0' 2 n ++ rest).take 2 = Numeral.padded '0' 2 n ++ [] := by
    rw [List.append_nil, List.take_left' (Numeral.length_padded (by decide) (by omega))]
  have read : readDigits (Numeral.padded '0' 2 n ++ []) (Numeral.padded '0' 2 n ++ rest) =
      .ok (n, rest) := readDigits_padded rest (by omega) rfl
  rw [readField, dropBlank_padded, window, read]
  exact if_pos within

theorem fits_year {year : Int} (low : -262143 ≤ year) (high : year ≤ 262142) :
    Int32.minValue.toInt ≤ year ∧ year ≤ Int32.maxValue.toInt := by
  have min : Int32.minValue.toInt = -2147483648 := by decide
  have max : Int32.maxValue.toInt = 2147483647 := by decide
  omega

theorem readYear_padded {n : Nat} (rest : List Char) (short : n ≤ 9999) :
    readYear (Numeral.padded '0' 4 n ++ rest) = .ok ((n : Int), rest) := by
  have window : (Numeral.padded '0' 4 n ++ rest).take 4 = Numeral.padded '0' 4 n ++ [] := by
    rw [List.append_nil, List.take_left' (Numeral.length_padded (by decide) (by omega))]
  have read : readDigits (Numeral.padded '0' 4 n ++ []) (Numeral.padded '0' 4 n ++ rest) =
      .ok (n, rest) := readDigits_padded _ (by omega) rfl
  obtain ⟨c, digits, shown, -, minus, plus⟩ := head_padded 4 n
  rw [readYear, dropBlank_padded]
  split
  case h_1 sign =>
    rw [shown] at sign
    exact absurd (List.cons.inj sign).1 minus
  case h_2 sign =>
    rw [shown] at sign
    exact absurd (List.cons.inj sign).1 plus
  rw [window, read]
  exact if_pos (fits_year (by omega) (by omega))

theorem readYear_wire {year : Int} (rest : List Char) (low : -262143 ≤ year)
    (high : year ≤ 262142) : readYear (yearWire year ++ '-' :: rest) = .ok (year, '-' :: rest) := by
  have digits : readDigits (Numeral.padded '0' 4 year.natAbs ++ '-' :: rest)
      (Numeral.padded '0' 4 year.natAbs ++ '-' :: rest) = .ok (year.natAbs, '-' :: rest) :=
    readDigits_padded ('-' :: rest) (by omega) rfl
  unfold yearWire
  split
  case isTrue short =>
    rw [readYear_padded _ (by omega), Int.toNat_of_nonneg short.1]
  case isFalse =>
    split
    case isTrue negative =>
      have value : -(year.natAbs : Int) = year := by omega
      have blank : Text.dropBlank ('-' :: (Numeral.padded '0' 4 year.natAbs ++ '-' :: rest)) =
          '-' :: (Numeral.padded '0' 4 year.natAbs ++ '-' :: rest) := rfl
      rw [readYear, List.cons_append, blank]
      simp only [digits, Except.map, bind, Except.bind, value]
      exact if_pos (fits_year low high)
    case isFalse positive =>
      have value : (year.natAbs : Int) = year := by omega
      have blank : Text.dropBlank ('+' :: (Numeral.padded '0' 4 year.natAbs ++ '-' :: rest)) =
          '+' :: (Numeral.padded '0' 4 year.natAbs ++ '-' :: rest) := rfl
      rw [readYear, List.cons_append, blank]
      simp only [digits, Except.map, bind, Except.bind, value]
      exact if_pos (fits_year low high)

theorem readFraction_padded (digits n : Nat) (more : List Char) (wide : 0 < digits)
    (most : digits ≤ 9) (small : n < 10 ^ digits) (ends : more.takeWhile Char.isDigit = []) :
    readFraction ('.' :: (Numeral.padded '0' digits n ++ more)) =
      .ok (n * 10 ^ (9 - digits), more) := by
  have length := Numeral.length_padded wide small
  have window : (Numeral.padded '0' digits n ++ more).take 9 =
      Numeral.padded '0' digits n ++ more.take (9 - digits) := by
    rw [List.take_append, length, List.take_of_length_le (by omega)]
  have endsWindow : (more.take (9 - digits)).takeWhile Char.isDigit = [] := by
    cases more with
    | nil => rw [List.take_nil, List.takeWhile_nil]
    | cons c rest =>
      cases 9 - digits with
      | zero => rfl
      | succ window =>
        have other : c.isDigit = false := by
          cases digit : c.isDigit with
          | false => rfl
          | true => simp [digit] at ends
        simp [other]
  have small : n < 9223372036854775808 := by
    have bound : 10 ^ digits ≤ 10 ^ 9 := Nat.pow_le_pow_right (by decide) most
    omega
  have read : readDigits (Numeral.padded '0' digits n ++ more.take (9 - digits))
      (Numeral.padded '0' digits n ++ more) = .ok (n, more) :=
    readDigits_padded more small endsWindow
  rw [readFraction, window, read, takeWhile_padded digits n ends]
  simp only [bind, Except.bind, length, List.drop_left' length]
  rfl

theorem readFraction_wire {nanos : Nat} (rest : List Char) (small : nanos < 1000000000) :
    readFraction (fractionWire nanos ++ 'Z' :: rest) = .ok (nanos, 'Z' :: rest) := by
  unfold fractionWire
  split
  case isTrue none => rw [none]; rfl
  split
  case isTrue millis =>
    have read := readFraction_padded 3 (nanos / 1000000) ('Z' :: rest) (by decide) (by decide)
      (by omega) rfl
    have value : nanos / 1000000 * 10 ^ (9 - 3) = nanos := by omega
    rw [List.cons_append, read, value]
  split
  case isTrue micros =>
    have read := readFraction_padded 6 (nanos / 1000) ('Z' :: rest) (by decide) (by decide)
      (by omega) rfl
    have value : nanos / 1000 * 10 ^ (9 - 6) = nanos := by omega
    rw [List.cons_append, read, value]
  case isFalse =>
    have read := readFraction_padded 9 nanos ('Z' :: rest) (by decide) (by decide) small rfl
    rw [List.cons_append, read, Nat.sub_self, Nat.pow_zero, Nat.mul_one]

end Rfc3339

namespace Instant

theorem year_within (t : Instant) : -262143 ≤ t.date.year ∧ t.date.year ≤ 262142 := by
  have first := t.first_le
  have last := t.le_last
  have starts := Calendar.yearStart_yearOf_le (t.day + Calendar.epoch)
  have ends := Calendar.lt_yearStart_yearOf_succ (t.day + Calendar.epoch)
  have year : t.date.year = Calendar.yearOf (t.day + Calendar.epoch) := rfl
  have seconds : t.day = t.seconds / 86400 := rfl
  rw [firstSecond] at first
  rw [lastSecond] at last
  constructor
  · refine Int.not_lt.1 fun early => ?_
    have mono := Calendar.Date.yearStart_mono (show t.date.year + 1 ≤ -262143 by omega)
    rw [year] at mono
    omega
  · refine Int.not_lt.1 fun late => ?_
    have mono := Calendar.Date.yearStart_mono (show 262143 ≤ t.date.year by omega)
    rw [year] at mono
    omega

theorem hour_le (t : Instant) : t.hour ≤ 23 := by
  simp only [hour, secondOfDay]
  omega

theorem minute_le (t : Instant) : t.minute ≤ 59 := by
  simp only [minute]
  omega

theorem subsecond_lt (t : Instant) : t.subsecond < 1000000000 := Nat.mod_lt _ (by decide)

theorem nanos_lt_two (t : Instant) : t.nanos < 2000000000 := by
  have most := t.nanos_lt
  split at most
  case isTrue => exact most
  case isFalse => omega

theorem second_eq (t : Instant) :
    t.nanos < 1000000000 ∧ t.second = t.secondOfDay % 60 ∨
      1000000000 ≤ t.nanos ∧ t.secondOfDay % 60 = 59 ∧ t.second = 60 := by
  have nanos := t.nanos_lt
  have place : t.secondOfDay % 60 = (t.seconds % 60).toNat := by
    simp only [secondOfDay]
    omega
  simp only [second]
  split at nanos
  case isTrue => omega
  case isFalse => omega

theorem second_le (t : Instant) : t.second ≤ 60 := by
  have leap := t.second_eq
  omega

theorem seconds_eq (t : Instant) :
    t.date.toDays * 86400 + ((t.hour * 3600 + t.minute * 60 +
      if t.second = 60 then 59 else t.second : Nat) : Int) = t.seconds := by
  have leap := t.second_eq
  have day : t.date.toDays = t.day := Calendar.Date.toDays_ofDays t.day
  rw [day]
  simp only [Instant.day, hour, minute, secondOfDay] at leap ⊢
  split
  case isTrue => omega
  case isFalse => omega

theorem nanos_eq (t : Instant) :
    (if t.second = 60 then t.subsecond + 1000000000 else t.subsecond) = t.nanos := by
  have leap := t.second_eq
  have part : t.secondOfDay % 60 < 60 := Nat.mod_lt _ (by decide)
  have bound := t.nanos_lt_two
  simp only [subsecond]
  split
  case isTrue => omega
  case isFalse => omega

end Instant

namespace Rfc3339

theorem resolve_parts (t : Instant) :
    resolve t.date.year t.date.month t.date.day t.hour t.minute t.second t.subsecond 0 = .ok t := by
  have year : ¬ (t.date.year < -262143 ∨ 262142 < t.date.year) := by
    have within := t.year_within
    omega
  have again : Instant.of? t.seconds t.nanos = some t :=
    dif_pos ⟨t.first_le, t.le_last, t.nanos_lt⟩
  simp only [resolve, if_neg year, t.date.ofYearMonthDay?_month_day, t.seconds_eq, t.nanos_eq,
    Int.sub_zero, again]
  rfl

def toSecond (t : Instant) (rest : List Char) : List Char :=
  yearWire t.date.year ++ '-' :: (Numeral.padded '0' 2 t.date.month ++
    '-' :: (Numeral.padded '0' 2 t.date.day ++ 'T' :: (Numeral.padded '0' 2 t.hour ++
    ':' :: (Numeral.padded '0' 2 t.minute ++ ':' :: (Numeral.padded '0' 2 t.second ++ rest)))))

/-- What stands behind the second, as long as it is in UTC, adds nothing but nanoseconds. -/
theorem readInstant_toSecond (t : Instant) {rest zone : List Char} {nanos : Nat}
    (fraction : readFraction rest = .ok (nanos, zone)) (offset : readOffset zone = .ok (0, [])) :
    readInstant (toSecond t rest) =
      resolve t.date.year t.date.month t.date.day t.hour t.minute t.second nanos 0 := by
  have year (rest : List Char) := readYear_wire rest t.year_within.1 t.year_within.2
  have month (rest : List Char) := readField_padded rest t.date.month_within (by decide)
  have day (rest : List Char) := readField_padded rest t.date.day_within (by decide)
  have hour (rest : List Char) := readField_padded rest ⟨Nat.zero_le _, t.hour_le⟩ (by decide)
  have minute (rest : List Char) := readField_padded rest ⟨Nat.zero_le _, t.minute_le⟩ (by decide)
  have second (rest : List Char) := readField_padded rest ⟨Nat.zero_le _, t.second_le⟩ (by decide)
  have dash (rest : List Char) := readMark_cons (by decide : Text.isBlank '-' = false) rest
  have colon (rest : List Char) := readMark_cons (by decide : Text.isBlank ':' = false) rest
  have separator (rest : List Char) : readSeparator ('T' :: rest) = .ok rest := rfl
  rw [toSecond, readInstant]
  simp only [year, dash, month, day, separator, hour, colon, minute, second, fraction, offset,
    bind, Except.bind]
  rfl

theorem readInstant_wire (t : Instant) : readInstant (wire ['Z'] t) = .ok t := by
  have text : wire ['Z'] t = toSecond t (fractionWire t.subsecond ++ ['Z']) := by
    simp [wire, dateWire, timeWire, toSecond]
  have fraction := readFraction_wire [] t.subsecond_lt
  have offset : readOffset ['Z'] = .ok (0, []) := rfl
  rw [text, readInstant_toSecond t fraction offset]
  exact resolve_parts t

theorem read_write (t : Instant) : read (write t) = .ok t := by
  rw [read, write, String.toList_ofList, readInstant_wire]

end Rfc3339

end BuildCapture
