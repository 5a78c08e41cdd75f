import BuildCapture.Json.Scan
set_option autoImplicit false

namespace BuildCapture.Json

def hexDigits : List Char := "0123456789abcdefABCDEF".toList

theorem hexValue_isSome : ∀ d ∈ hexDigits, (hexValue d).isSome = true :=
  List.all_eq_true.1 (by decide)

theorem utf8Size_of_mem {d : Char} (h : d ∈ hexDigits) : d.utf8Size = 1 := by
  have all : hexDigits.all (fun d => d.utf8Size = 1) = true := by decide
  simpa using List.all_eq_true.1 all d h

def isPlain (c : Char) : Bool := 32 ≤ c.toNat && c ≠ '"' && c ≠ '\\'

/-- A character of a string as it is written: by itself, as an escape of one letter, or as a code
unit of four digits. -/
inductive Mark where
  | plain (c : Char) (h : isPlain c = true)
  | escape (letter : Char) (known : letter ∈ ['"', '\\', '/', 'b', 'f', 'n', 'r', 't'])
  | unit (digits : List Char) (four : digits.length = 4) (hex : ∀ d ∈ digits, d ∈ hexDigits)

namespace Mark

def text : Mark → List Char
  | .plain c _ => [c]
  | .escape letter _ => ['\\', letter]
  | .unit digits _ _ => '\\' :: 'u' :: digits

def codeUnit (digits : List Char) : Nat :=
  digits.foldl (fun n d => 16 * n + (hexValue d).getD 0) 0

def piece : Mark → Piece
  | .plain c _ => .char c
  | .escape letter _ => .char ((unescape letter).getD letter)
  | .unit digits _ _ => .unit (codeUnit digits)

end Mark

abbrev Literal := List Mark

namespace Literal

def text (l : Literal) : List Char := '"' :: l.flatMap Mark.text ++ ['"']

/-- The string that the literal stands for; none if a surrogate has no partner. -/
def read (l : Literal) : Except Fault String :=
  (assemble (.ok ()) (l.map Mark.piece)).map String.ofList

def string? (l : Literal) : Option String := l.read.toOption

end Literal

theorem fourBytesLeft_unit {digits : List Char} (four : digits.length = 4)
    (hex : ∀ d ∈ digits, d ∈ hexDigits) (rest : List Char) :
    fourBytesLeft (digits ++ rest) = true := by
  match digits, four with
  | [a, b, c, d], _ =>
    simp only [List.forall_mem_cons] at hex
    obtain ⟨ha, hb, hc, hd, -⟩ := hex
    simp [fourBytesLeft, utf8Size_of_mem ha, utf8Size_of_mem hb, utf8Size_of_mem hc,
      utf8Size_of_mem hd]

theorem pieces_unit {digits : List Char} (four : digits.length = 4)
    (hex : ∀ d ∈ digits, d ∈ hexDigits) (rest : List Char) :
    pieces .nothing ('\\' :: 'u' :: (digits ++ rest)) =
      (pieces .nothing rest).map (.unit (Mark.codeUnit digits) :: ·) id := by
  have left := fourBytesLeft_unit four hex rest
  match digits, four with
  | [a, b, c, d], _ =>
    simp only [List.forall_mem_cons] at hex
    obtain ⟨ha, hb, hc, hd, -⟩ := hex
    obtain ⟨a', ha⟩ := Option.isSome_iff_exists.1 (hexValue_isSome _ ha)
    obtain ⟨b', hb⟩ := Option.isSome_iff_exists.1 (hexValue_isSome _ hb)
    obtain ⟨c', hc⟩ := Option.isSome_iff_exists.1 (hexValue_isSome _ hc)
    obtain ⟨d', hd⟩ := Option.isSome_iff_exists.1 (hexValue_isSome _ hd)
    simp only [List.cons_append, List.nil_append] at left ⊢
    simp [pieces, left, ha, hb, hc, hd, Mark.codeUnit]

theorem pieces_mark (m : Mark) (rest : List Char) :
    pieces .nothing (m.text ++ rest) = (pieces .nothing rest).map (m.piece :: ·) id := by
  cases m with
  | plain c h =>
    simp only [isPlain, Bool.and_eq_true, decide_eq_true_eq] at h
    obtain ⟨⟨printed, quote⟩, slash⟩ := h
    simp [Mark.text, Mark.piece, pieces, Nat.not_lt.2 printed, quote, slash]
  | escape letter known =>
    simp only [List.mem_cons, List.not_mem_nil, or_false] at known
    rcases known with rfl | rfl | rfl | rfl | rfl | rfl | rfl | rfl <;> rfl
  | unit digits four hex => exact pieces_unit four hex rest

theorem pieces_marks (l : Literal) (rest : List Char) :
    pieces .nothing (l.flatMap Mark.text ++ '"' :: rest) = (l.map Mark.piece, .ok rest) := by
  induction l with
  | nil => rfl
  | cons m l ih =>
    rw [List.flatMap_cons, List.append_assoc, pieces_mark, ih]
    rfl

theorem scanString_marks (l : Literal) (rest : List Char) :
    scanString (l.flatMap Mark.text ++ '"' :: rest) = ⟨l.read, .ok rest⟩ := by
  simp only [scanString, pieces_marks]
  rfl

inductive Paired : List Piece → Prop where
  | nil : Paired []
  | char {rest : List Piece} (c : Char) (h : Paired rest) : Paired (.char c :: rest)
  | unit {rest : List Piece} {n : Nat} (low : isLowSurrogate n = false)
    (high : isHighSurrogate n = false) (h : Paired rest) : Paired (.unit n :: rest)
  | pair {rest : List Piece} {n m : Nat} (high : isHighSurrogate n = true)
    (low : isLowSurrogate m = true) (h : Paired rest) : Paired (.unit n :: .unit m :: rest)

theorem assemble_unit (stop : Except Fault Unit) {n : Nat} (low : isLowSurrogate n = false)
    (high : isHighSurrogate n = false) (rest : List Piece) :
    assemble stop (.unit n :: rest) = (assemble stop rest).map (Char.ofNat n :: ·) := by
  cases rest with
  | nil => simp [assemble, low, high]
  | cons p rest => cases p <;> simp [assemble, low, high]

theorem isLowSurrogate_of_high {n : Nat} (h : isHighSurrogate n = true) :
    isLowSurrogate n = false := by
  simp only [isHighSurrogate, Bool.and_eq_true, decide_eq_true_eq] at h
  simp only [isLowSurrogate, Bool.and_eq_false_iff, decide_eq_false_iff_not]
  omega

theorem assemble_of_paired {found : List Piece} (h : Paired found) :
    ∃ s, assemble (.ok ()) found = .ok s := by
  induction h with
  | nil => exact ⟨[], rfl⟩
  | char c _ ih =>
    obtain ⟨s, ih⟩ := ih
    exact ⟨c :: s, by rw [assemble, ih]; rfl⟩
  | @unit _ n low high _ ih =>
    obtain ⟨s, ih⟩ := ih
    exact ⟨Char.ofNat n :: s, by rw [assemble_unit _ low high, ih]; rfl⟩
  | @pair _ n m high low _ ih =>
    obtain ⟨s, ih⟩ := ih
    refine ⟨pairUp n m :: s, ?_⟩
    simp only [assemble, isLowSurrogate_of_high high, high, low, if_true, ih]
    rfl

theorem Literal.exists_read {l : Literal} (h : Paired (l.map Mark.piece)) :
    ∃ s, l.read = .ok s := by
  obtain ⟨s, assembled⟩ := assemble_of_paired h
  exact ⟨String.ofList s, by rw [read, assembled]; rfl⟩

/-- A string that needs no escapes, as it is. -/
def Literal.bare (s : String) (h : s.toList.all isPlain = true := by decide) : Literal :=
  s.toList.attach.map fun c => .plain c.1 (List.all_eq_true.1 h c.1 c.2)

theorem Literal.paired_bare {s : String} (h : s.toList.all isPlain = true) :
    Paired ((bare s h).map Mark.piece) := by
  have chars (cs : List Char) : Paired (cs.map .char) := by
    induction cs with
    | nil => exact .nil
    | cons c cs ih => exact .char c ih
  simpa [bare, Mark.piece, Function.comp_def] using chars s.toList

def hasEscape (c : Char) : Bool := ['"', '\\', '\x08', '\x0c', '\n', '\r', '\t'].contains c

/-- How a character stands in a literal: by itself, or as a code unit if it is a control character
without an escape of its own. -/
def pieceOf (c : Char) : Piece :=
  if c.toNat < 32 ∧ !hasEscape c then .unit c.toNat else .char c

theorem escaped_of_control {c : Char} (control : c.toNat < 32) (plain : hasEscape c = false) :
    escaped c = '\\' :: 'u' :: '0' :: '0' :: hexPair c.toNat := by
  unfold escaped
  split <;> simp_all [hasEscape]

theorem escaped_of_plain {c : Char} (printed : ¬ c.toNat < 32) (plain : hasEscape c = false) :
    escaped c = [c] := by
  unfold escaped
  split <;> simp_all [hasEscape]

theorem digitChar_mem_hexDigits : ∀ d < 16, Nat.digitChar d ∈ hexDigits := by decide

theorem hexValue_digitChar : ∀ d < 16, hexValue (Nat.digitChar d) = some d := by decide

theorem exists_mark (c : Char) : ∃ m : Mark, m.text = escaped c ∧ m.piece = pieceOf c := by
  by_cases named : hasEscape c
  · have piece : pieceOf c = .char c := by simp [pieceOf, named]
    rw [piece]
    simp only [hasEscape, List.contains_eq_mem, decide_eq_true_eq, List.mem_cons,
      List.not_mem_nil, or_false] at named
    rcases named with rfl | rfl | rfl | rfl | rfl | rfl | rfl
    · exact ⟨.escape '"' (by decide), rfl, rfl⟩
    · exact ⟨.escape '\\' (by decide), rfl, rfl⟩
    · exact ⟨.escape 'b' (by decide), rfl, rfl⟩
    · exact ⟨.escape 'f' (by decide), rfl, rfl⟩
    · exact ⟨.escape 'n' (by decide), rfl, rfl⟩
    · exact ⟨.escape 'r' (by decide), rfl, rfl⟩
    · exact ⟨.escape 't' (by decide), rfl, rfl⟩
  · simp only [Bool.not_eq_true] at named
    by_cases control : c.toNat < 32
    · have high := digitChar_mem_hexDigits (c.toNat / 16) (by omega)
      have low := digitChar_mem_hexDigits (c.toNat % 16) (by omega)
      have hex : ∀ d ∈ '0' :: '0' :: hexPair c.toNat, d ∈ hexDigits := by
        simp [hexPair, high, low, show '0' ∈ hexDigits by decide]
      refine ⟨.unit _ rfl hex, (escaped_of_control control named).symm, ?_⟩
      have zero : hexValue '0' = some 0 := by decide
      have value : 16 * (c.toNat / 16) + c.toNat % 16 = c.toNat := by omega
      simp [Mark.piece, Mark.codeUnit, hexPair, zero, hexValue_digitChar (c.toNat / 16) (by omega),
        hexValue_digitChar (c.toNat % 16) (by omega), value, pieceOf, control, named]
    · have quote : c ≠ '"' := by rintro rfl; simp [hasEscape] at named
      have slash : c ≠ '\\' := by rintro rfl; simp [hasEscape] at named
      have plain : isPlain c = true := by simp [isPlain, Nat.not_lt.1 control, quote, slash]
      refine ⟨.plain c plain, (escaped_of_plain control named).symm, ?_⟩
      simp [Mark.piece, pieceOf, control]

theorem exists_marks (s : List Char) : ∃ l : Literal,
    l.flatMap Mark.text = s.flatMap escaped ∧ l.map Mark.piece = s.map pieceOf := by
  induction s with
  | nil => exact ⟨[], rfl, rfl⟩
  | cons c s ih =>
    obtain ⟨m, text, piece⟩ := exists_mark c
    obtain ⟨l, texts, pieces⟩ := ih
    exact ⟨m :: l, by simp [text, texts], by simp [piece, pieces]⟩

theorem assemble_pieceOf (stop : Except Fault Unit) (c : Char) (rest : List Piece) :
    assemble stop (pieceOf c :: rest) = (assemble stop rest).map (c :: ·) := by
  unfold pieceOf
  split
  case isTrue control =>
    have low : isLowSurrogate c.toNat = false := by simp [isLowSurrogate]; omega
    have high : isHighSurrogate c.toNat = false := by simp [isHighSurrogate]; omega
    rw [assemble_unit stop low high, Char.ofNat_toNat]
  case isFalse => simp [assemble]

theorem assemble_map_pieceOf (s : List Char) : assemble (.ok ()) (s.map pieceOf) = .ok s := by
  induction s with
  | nil => rfl
  | cons c s ih =>
    rw [List.map_cons, assemble_pieceOf, ih]
    rfl

theorem exists_literal (s : String) : ∃ l : Literal, l.text = stringWire s ∧ l.read = .ok s := by
  obtain ⟨l, text, pieces⟩ := exists_marks s.toList
  refine ⟨l, by rw [Literal.text, stringWire, text], ?_⟩
  rw [Literal.read, pieces, assemble_map_pieceOf]
  simp [Except.map]

structure Digits where
  chars : List Char
  nonempty : chars ≠ []
  all : chars.all Char.isDigit = true

structure Exponent where
  upper : Bool
  /-- Whether the sign is a minus, if there is one. -/
  sign : Option Bool
  digits : Digits

structure NumberLiteral where
  negative : Bool
  whole : Digits
  fraction : Option Digits
  exponent : Option Exponent
  /-- A leading zero is the whole part. -/
  leading : ∀ rest, whole.chars = '0' :: rest → rest = []

def signText : Option Bool → List Char
  | none => []
  | some true => ['-']
  | some false => ['+']

def Exponent.text (e : Exponent) : List Char :=
  (if e.upper then 'E' else 'e') :: (signText e.sign ++ e.digits.chars)

namespace NumberLiteral

def exponentText : Option Exponent → List Char
  | none => []
  | some e => e.text

def fractionText : Option Digits → List Char
  | none => []
  | some digits => '.' :: digits.chars

def text (n : NumberLiteral) : List Char :=
  (if n.negative then ['-'] else []) ++
    (n.whole.chars ++ (fractionText n.fraction ++ exponentText n.exponent))

def parts (n : NumberLiteral) : NumberParts where
  negative := n.negative
  whole := n.whole.chars
  fraction := (n.fraction.map Digits.chars).getD []
  exponent := n.exponent.map fun e => (e.sign == some true, e.digits.chars)
  isInteger := n.fraction.isNone && n.exponent.isNone

/-- The number does not lie beyond the range of doubles. -/
def InRange (n : NumberLiteral) : Prop := ∃ value, n.parts.scalar = .ok value

end NumberLiteral

/-- A text that no numeral can run on into. -/
def EndsNumber (s : List Char) : Prop :=
  ∀ c, s.head? = some c → c.isDigit = false ∧ c ≠ '.' ∧ c ≠ 'e' ∧ c ≠ 'E'

theorem endsNumber_nil : EndsNumber [] := by simp [EndsNumber]

def EndsDigits (s : List Char) : Prop := ∀ c, s.head? = some c → c.isDigit = false

theorem EndsNumber.digits {s : List Char} (h : EndsNumber s) : EndsDigits s :=
  fun c hc => (h c hc).1

theorem Digits.digitsOf_append (digits : Digits) {rest : List Char} (hr : EndsDigits rest) :
    digitsOf (digits.chars ++ rest) = digits.chars := by
  rw [digitsOf, List.takeWhile_append_of_pos (List.all_eq_true.1 digits.all)]
  cases rest with
  | nil => simp
  | cons c rest => simp [hr c rfl]

theorem Digits.afterDigits_append (digits : Digits) {rest : List Char} (hr : EndsDigits rest) :
    afterDigits (digits.chars ++ rest) = rest := by
  rw [afterDigits, List.dropWhile_append_of_pos (List.all_eq_true.1 digits.all)]
  cases rest with
  | nil => rfl
  | cons c rest => simp [hr c rfl]

theorem Digits.exists_cons (d : Digits) : ∃ c rest, d.chars = c :: rest ∧ c.isDigit = true := by
  obtain ⟨chars, nonempty, all⟩ := d
  cases chars with
  | nil => exact absurd rfl nonempty
  | cons c rest => exact ⟨c, rest, rfl, List.all_eq_true.1 all c List.mem_cons_self⟩

theorem ne_of_isDigit {c d : Char} (hc : c.isDigit = true) (hd : d.isDigit = false) : c ≠ d := by
  rintro rfl; simp [hc] at hd

def NumberParts.withExponent (p : NumberParts) : Option Exponent → NumberParts
  | none => p
  | some e => { p with exponent := some (e.sign == some true, e.digits.chars), isInteger := false }

def NumberParts.withFraction (p : NumberParts) : Option Digits → NumberParts
  | none => p
  | some digits => { p with fraction := digits.chars, isInteger := false }

theorem NumberLiteral.parts_eq (n : NumberLiteral) :
    n.parts = ((NumberParts.mk n.negative n.whole.chars [] none true).withFraction
      n.fraction).withExponent n.exponent := by
  obtain ⟨negative, whole, fraction, exponent, leading⟩ := n
  cases fraction <;> cases exponent <;> rfl

section
variable {rest : List Char} (ends : EndsNumber rest)
include ends

theorem scanExponent_text (p : NumberParts) (e : Option Exponent) :
    scanExponent p (NumberLiteral.exponentText e ++ rest) =
      ⟨(p.withExponent e).scalar, .ok rest⟩ := by
  cases e with
  | none =>
    cases rest with
    | nil => rfl
    | cons c rest =>
      obtain ⟨-, -, lower, upper⟩ := ends c rfl
      simp [NumberLiteral.exponentText, NumberParts.withExponent, scanExponent, lower, upper]
  | some e =>
    obtain ⟨upper, sign, digits⟩ := e
    have found := digits.digitsOf_append ends.digits
    have left := digits.afterDigits_append ends.digits
    have mark : (if upper then 'E' else 'e') = 'e' ∨ (if upper then 'E' else 'e') = 'E' := by
      cases upper <;> simp
    simp only [NumberLiteral.exponentText, Exponent.text, List.cons_append, List.append_assoc,
      scanExponent, if_pos mark]
    cases sign with
    | some minus =>
      cases minus <;> simp [signText, found, left, digits.nonempty, NumberParts.withExponent]
    | none =>
      -- A digit is no sign.
      obtain ⟨c, others, hd, digit⟩ := digits.exists_cons
      have minus : c ≠ '-' := ne_of_isDigit digit (by decide)
      have plus : c ≠ '+' := ne_of_isDigit digit (by decide)
      simp only [signText, List.nil_append]
      split
      case h_1 same => simp_all
      case h_2 same => simp_all
      case h_3 => simp [found, left, digits.nonempty, NumberParts.withExponent]

theorem endsDigits_exponentText (e : Option Exponent) :
    EndsDigits (NumberLiteral.exponentText e ++ rest) := by
  intro c hc
  cases e with
  | none => exact ends.digits c hc
  | some e =>
    obtain rfl : (if e.upper then 'E' else 'e') = c := Option.some.inj hc
    cases e.upper <;> decide

theorem scanFraction_text (p : NumberParts) (fraction : Option Digits) (e : Option Exponent) :
    scanFraction p (NumberLiteral.fractionText fraction ++ (NumberLiteral.exponentText e ++ rest)) =
      ⟨((p.withFraction fraction).withExponent e).scalar, .ok rest⟩ := by
  cases fraction with
  | some digits =>
    have apart := endsDigits_exponentText ends e
    simp only [NumberLiteral.fractionText, List.cons_append, scanFraction,
      digits.digitsOf_append apart, digits.afterDigits_append apart, List.isEmpty_iff,
      digits.nonempty, if_false, NumberParts.withFraction]
    exact scanExponent_text ends _ e
  | none =>
    rw [NumberLiteral.fractionText, List.nil_append, NumberParts.withFraction]
    rw [← scanExponent_text ends p e]
    refine scanFraction.eq_2 p _ fun others same => ?_
    cases e with
    | none => exact (ends '.' (congrArg List.head? same)).2.1 rfl
    | some e =>
      have mark : (if e.upper then 'E' else 'e') = '.' := (List.cons.inj same).1
      revert mark
      cases e.upper <;> decide

theorem endsDigits_fractionText (fraction : Option Digits) (e : Option Exponent) :
    EndsDigits (NumberLiteral.fractionText fraction ++ (NumberLiteral.exponentText e ++ rest)) := by
  cases fraction with
  | none => exact endsDigits_exponentText ends e
  | some digits =>
    intro c hc
    obtain rfl : '.' = c := Option.some.inj hc
    decide

theorem scanWhole_text (n : NumberLiteral) :
    scanWhole n.negative (n.whole.chars ++ (NumberLiteral.fractionText n.fraction ++
        (NumberLiteral.exponentText n.exponent ++ rest))) =
      ⟨n.parts.scalar, .ok rest⟩ := by
  have apart := endsDigits_fractionText ends n.fraction n.exponent
  rw [scanWhole, n.whole.digitsOf_append apart, n.whole.afterDigits_append apart]
  split
  case h_1 none => exact absurd none n.whole.nonempty
  case h_2 zero => exact absurd (n.leading _ zero) (List.cons_ne_nil _ _)
  case h_3 => rw [scanFraction_text ends, n.parts_eq]

theorem scanNumber_text (n : NumberLiteral) :
    scanNumber (n.text ++ rest) = ⟨n.parts.scalar, .ok rest⟩ := by
  have whole := scanWhole_text ends n
  rw [NumberLiteral.text]
  simp only [List.append_assoc]
  cases negative : n.negative with
  | true =>
    rw [negative] at whole
    exact whole
  | false =>
    rw [negative] at whole
    obtain ⟨c, others, hd, digit⟩ := n.whole.exists_cons
    refine Eq.trans (scanNumber.eq_2 _ fun tail same => ?_) whole
    rw [hd] at same
    exact ne_of_isDigit digit (by decide) (List.cons.inj same).1

end
theorem head_toDigits (n : Nat) (hn : 0 < n) :
    ∃ c rest, Nat.toDigits 10 n = c :: rest ∧ c ≠ '0' ∧ c.isDigit = true := by
  induction n using Nat.strongRecOn with
  | ind n ih =>
    by_cases small : n < 10
    · refine ⟨n.digitChar, [], Nat.toDigits_of_lt_base small, ?_, ?_⟩
      · have : ∀ d < 10, 0 < d → d.digitChar ≠ '0' := by decide
        exact this n small hn
      · have : ∀ d < 10, d.digitChar.isDigit = true := by decide
        exact this n small
    · obtain ⟨c, rest, hd, hc, hdigit⟩ := ih (n / 10) (by omega) (by omega)
      refine ⟨c, rest ++ [(n % 10).digitChar], ?_, hc, hdigit⟩
      rw [Nat.toDigits_of_base_le (by omega) (by omega), hd]
      rfl

/-- An integer that a literal without fraction and exponent is read as. -/
def FitsWord (n : Int) : Prop := Int64.minValue.toInt ≤ n ∧ n < UInt64.size

theorem scalar_of_nonneg {n : Int} (fits : FitsWord n) (h : 0 ≤ n) :
    NumberParts.scalar ⟨false, Nat.toDigits 10 n.natAbs, [], none, true⟩ = .ok (.int n) := by
  have whole : (n.natAbs : Int) = n := Int.natAbs_of_nonneg h
  have high : n.natAbs < UInt64.size := by
    have := fits.2
    omega
  simp [NumberParts.scalar, high, whole]

theorem scalar_of_neg {n : Int} (fits : FitsWord n) (h : n < 0) :
    NumberParts.scalar ⟨true, Nat.toDigits 10 n.natAbs, [], none, true⟩ = .ok (.int n) := by
  have whole : -(n.natAbs : Int) = n := by omega
  have low : Int64.minValue.toInt ≤ -(n.natAbs : Int) := by rw [whole]; exact fits.1
  have positive : 0 < n.natAbs := by omega
  simp only [NumberParts.scalar, Numeral.value_toDigits]
  rw [if_neg (by simp), if_pos ⟨trivial, trivial, positive, low⟩, whole]

theorem digits_toDigits (n : Nat) : (Nat.toDigits 10 n).all Char.isDigit = true :=
  List.all_eq_true.2 fun _ => Nat.isDigit_of_mem_toDigits (by omega) (by omega)

theorem leading_toDigits (n : Nat) (rest : List Char) (h : Nat.toDigits 10 n = '0' :: rest) :
    rest = [] := by
  by_cases zero : n = 0
  · subst zero
    exact (List.cons.inj h).2.symm
  · obtain ⟨c, others, hd, hc, -⟩ := head_toDigits n (by omega)
    rw [hd] at h
    exact absurd (List.cons.inj h).1 hc

theorem exists_number {n : Int} (fits : FitsWord n) :
    ∃ l : NumberLiteral, l.text = Numeral.ofInt n ∧ l.parts.scalar = .ok (.int n) := by
  let whole : Digits := ⟨Nat.toDigits 10 n.natAbs, Nat.toDigits_ne_nil, digits_toDigits n.natAbs⟩
  refine ⟨⟨decide (n < 0), whole, none, none, leading_toDigits n.natAbs⟩, ?_, ?_⟩
  · by_cases negative : n < 0 <;>
      simp [NumberLiteral.text, NumberLiteral.fractionText, NumberLiteral.exponentText, whole,
        Numeral.ofInt, negative]
  · by_cases negative : n < 0
    · simpa [NumberLiteral.parts, whole, negative] using scalar_of_neg fits negative
    · simpa [NumberLiteral.parts, whole, negative] using scalar_of_nonneg fits (by omega)

theorem NumberParts.scalar_ne_string (p : NumberParts) (s : String) :
    p.scalar ≠ .ok (.string s) := by
  unfold scalar
  dsimp only
  split
  · nofun
  · split
    · nofun
    · split <;> nofun

end BuildCapture.Json
