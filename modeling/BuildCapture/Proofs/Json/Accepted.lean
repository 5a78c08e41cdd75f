import BuildCapture.Proofs.Json.Lawful
set_option autoImplicit false

namespace BuildCapture.Json

theorem mem_hexDigits {c : Char} (h : (hexValue c).isSome = true) : c ∈ hexDigits := by
  have ascii : c.toNat < 128 := by
    unfold hexValue at h
    split at h
    case isTrue digit =>
      simp only [Char.isDigit, Bool.and_eq_true, decide_eq_true_eq] at digit
      have := UInt32.le_iff_toNat_le.1 digit.2
      exact Nat.lt_of_le_of_lt this (by decide)
    split at h
    case isTrue lower => exact Nat.lt_of_le_of_lt (UInt32.le_iff_toNat_le.1 lower.2) (by decide)
    split at h
    case isTrue upper => exact Nat.lt_of_le_of_lt (UInt32.le_iff_toNat_le.1 upper.2) (by decide)
    cases h
  have all : ∀ n < 128, (hexValue (Char.ofNat n)).isSome = true → Char.ofNat n ∈ hexDigits := by
    decide
  simpa [Char.ofNat_toNat] using all c.toNat ascii (by simpa [Char.ofNat_toNat] using h)

theorem escape_of_unescape {c : Char} (h : (unescape c).isSome = true) :
    c ∈ ['"', '\\', '/', 'b', 'f', 'n', 'r', 't'] := by
  unfold unescape at h
  split at h <;> simp_all

/-- What the characters up to the closing quote complete: a literal, one that the backslash before
them belongs to, or the digits still missing from a code unit and a literal after them. -/
def Completes : Pending → List Char → List Char → Prop
  | .nothing, s, rest => ∃ l : Literal, s = l.flatMap Mark.text ++ '"' :: rest
  | .escape, s, rest => ∃ l : Literal, '\\' :: s = l.flatMap Mark.text ++ '"' :: rest
  | .unit left _, s, rest => ∃ (digits : List Char) (l : Literal), digits.length = left + 1 ∧
    (∀ d ∈ digits, d ∈ hexDigits) ∧ s = digits ++ (l.flatMap Mark.text ++ '"' :: rest)

theorem completes_of_pieces {s rest : List Char} (pending : Pending)
    (h : (pieces pending s).2 = .ok rest) : Completes pending s rest := by
  -- What is pending tells which part of a mark the characters so far have begun.
  induction s generalizing pending with
  | nil => cases pending <;> cases h
  | cons c s ih =>
    cases pending with
    | nothing =>
      rw [pieces] at h
      split at h
      case isTrue quote =>
        cases h
        exact ⟨[], by rw [quote]; rfl⟩
      split at h
      case isTrue slash =>
        rw [slash]
        exact ih .escape h
      split at h
      case isTrue => cases h
      case isFalse quote slash printed =>
        obtain ⟨l, rfl⟩ := ih .nothing h
        have plain : isPlain c = true := by simp [isPlain, Nat.not_lt.1 printed, quote, slash]
        exact ⟨.plain c plain :: l, rfl⟩
    | escape =>
      rw [pieces] at h
      split at h
      case isTrue u =>
        rw [u]
        split at h
        case isTrue =>
          obtain ⟨digits, l, four, hex, rfl⟩ := ih (.unit 3 0) h
          exact ⟨.unit digits four hex :: l, by simp [Mark.text]⟩
        case isFalse => cases h
      case isFalse =>
        split at h
        case h_1 d named =>
          obtain ⟨l, rfl⟩ := ih .nothing h
          exact ⟨.escape c (escape_of_unescape (by simp [named])) :: l, rfl⟩
        case h_2 => cases h
    | unit left value =>
      rw [pieces] at h
      split at h
      case h_1 => cases h
      case h_2 digit found =>
        have hex : c ∈ hexDigits := mem_hexDigits (by simp [found])
        cases left with
        | zero =>
          obtain ⟨l, rfl⟩ := ih .nothing h
          exact ⟨[c], l, rfl, by simpa using hex, rfl⟩
        | succ left =>
          obtain ⟨digits, l, more, others, rfl⟩ := ih (.unit left (16 * value + digit)) h
          exact ⟨c :: digits, l, by simp [more], List.forall_mem_cons.2 ⟨hex, others⟩, rfl⟩

theorem exists_marks_of_scan {s rest : List Char} (h : (scanString s).rest = .ok rest) :
    ∃ l : Literal, s = l.flatMap Mark.text ++ '"' :: rest := completes_of_pieces .nothing h

theorem append_of_scanWord {value : Scalar} {letters s rest : List Char}
    (h : (scanWord value letters s).rest = .ok rest) : s = letters ++ rest := by
  induction letters generalizing s with
  | nil =>
    cases h
    rfl
  | cons letter letters ih =>
    cases s with
    | nil => cases h
    | cons c s =>
      rw [scanWord] at h
      split at h
      case isTrue same => rw [same, ih h]; rfl
      case isFalse => cases h

theorem digits_of_rest {s rest : List Char} {value : Except Fault Scalar}
    (h : (if (digitsOf s).isEmpty then noDigits s else ⟨value, .ok (afterDigits s)⟩).rest =
      .ok rest) : ∃ digits : Digits, s = digits.chars ++ rest := by
  split at h
  case isTrue => cases h
  case isFalse found =>
    cases h
    exact ⟨⟨digitsOf s, by simpa using found, List.all_takeWhile⟩,
      List.takeWhile_append_dropWhile.symm⟩

theorem exponentText_of_scan {p : NumberParts} {s rest : List Char}
    (h : (scanExponent p s).rest = .ok rest) :
    ∃ e : Option Exponent, s = NumberLiteral.exponentText e ++ rest := by
  unfold scanExponent at h
  split at h
  case h_2 =>
    cases h
    exact ⟨none, rfl⟩
  case h_1 c s =>
    split at h
    case isFalse =>
      cases h
      exact ⟨none, rfl⟩
    case isTrue mark =>
      have upper : ∃ upper : Bool, c = if upper then 'E' else 'e' := by
        rcases mark with rfl | rfl
        · exact ⟨false, rfl⟩
        · exact ⟨true, rfl⟩
      obtain ⟨upper, rfl⟩ := upper
      split at h
      case h_1 s =>
        obtain ⟨digits, rfl⟩ := digits_of_rest h
        exact ⟨some ⟨upper, some true, digits⟩, rfl⟩
      case h_2 s =>
        obtain ⟨digits, rfl⟩ := digits_of_rest h
        exact ⟨some ⟨upper, some false, digits⟩, rfl⟩
      case h_3 =>
        obtain ⟨digits, rfl⟩ := digits_of_rest h
        exact ⟨some ⟨upper, none, digits⟩, rfl⟩

theorem fractionText_of_scan {p : NumberParts} {s rest : List Char}
    (h : (scanFraction p s).rest = .ok rest) : ∃ fraction e,
      s = NumberLiteral.fractionText fraction ++ (NumberLiteral.exponentText e ++ rest) := by
  unfold scanFraction at h
  split at h
  case h_1 s =>
    split at h
    case isTrue => cases h
    case isFalse found =>
      obtain ⟨e, left⟩ := exponentText_of_scan h
      refine ⟨some ⟨digitsOf s, by simpa using found, List.all_takeWhile⟩, e, ?_⟩
      rw [← left]
      exact congrArg ('.' :: ·) List.takeWhile_append_dropWhile.symm
  case h_2 =>
    obtain ⟨e, rfl⟩ := exponentText_of_scan h
    exact ⟨none, e, rfl⟩

theorem number_of_scanWhole {negative : Bool} {s rest : List Char}
    (h : (scanWhole negative s).rest = .ok rest) :
    ∃ n : NumberLiteral, (if negative then ['-'] else []) ++ s = n.text ++ rest := by
  unfold scanWhole at h
  split at h
  case h_1 => cases h
  case h_2 => cases h
  case h_3 none zero =>
    obtain ⟨fraction, e, left⟩ := fractionText_of_scan h
    let whole : Digits := ⟨digitsOf s, none, List.all_takeWhile⟩
    have leading : ∀ others, whole.chars = '0' :: others → others = [] := by
      intro others same
      cases others with
      | nil => rfl
      | cons c others => exact absurd same (zero c others)
    refine ⟨⟨negative, whole, fraction, e, leading⟩, ?_⟩
    have split : s = digitsOf s ++ afterDigits s := List.takeWhile_append_dropWhile.symm
    rw [left] at split
    rw [NumberLiteral.text, List.append_assoc, List.append_assoc, List.append_assoc]
    exact congrArg _ split

theorem number_of_scan {s rest : List Char} (h : (scanNumber s).rest = .ok rest) :
    ∃ n : NumberLiteral, s = n.text ++ rest := by
  unfold scanNumber at h
  split at h
  case h_1 => exact number_of_scanWhole h
  case h_2 => exact number_of_scanWhole h

theorem document_of_scanScalar {c : Char} {s rest : List Char}
    (h : (scanScalar c s).rest = .ok rest) :
    ∃ (d : Document) (t : List Char), d.Spelled t ∧ c :: s = t ++ rest := by
  unfold scanScalar at h
  split at h
  case h_1 => exact ⟨.null, _, rfl, congrArg ('n' :: ·) (append_of_scanWord h)⟩
  case h_2 => exact ⟨.bool true, _, rfl, congrArg ('t' :: ·) (append_of_scanWord h)⟩
  case h_3 => exact ⟨.bool false, _, rfl, congrArg ('f' :: ·) (append_of_scanWord h)⟩
  case h_4 =>
    obtain ⟨l, rfl⟩ := exists_marks_of_scan h
    exact ⟨.string l, _, rfl, by simp [Literal.text]⟩
  case h_5 =>
    split at h
    case isTrue =>
      obtain ⟨n, same⟩ := number_of_scan h
      exact ⟨.number n, _, rfl, same⟩
    case isFalse => cases h

theorem exists_blanks (s : List Char) : ∃ gap, Blanks gap ∧ s = gap ++ dropSpace s :=
  ⟨s.takeWhile isSpace, List.all_eq_true.1 List.all_takeWhile,
    List.takeWhile_append_dropWhile.symm⟩

theorem Blanks.append {gap gap' : List Char} (h : Blanks gap) (h' : Blanks gap') :
    Blanks (gap ++ gap') := List.forall_mem_append.2 ⟨h, h'⟩

/-- Whatever is scanned within so many steps so far that there is a text after it, has been spelled
up to there. -/
structure Spells (steps : Nat) : Prop where
  value : ∀ {s rest : List Char}, (scanValue steps s).2 = some rest →
    ∃ (d : Document) (gap t : List Char), Blanks gap ∧ d.Spelled t ∧ s = gap ++ (t ++ rest)
  items : ∀ {first : Bool} {s rest : List Char}, (scanItems steps first s).2.2 = some rest →
    ∃ (items : List Document) (u : List Char), Document.ItemsSpelled first items u ∧ s = u ++ rest
  members : ∀ {first : Bool} {s rest : List Char}, (scanMembers steps first s).2.2 = some rest →
    ∃ (members : List (Literal × Document)) (u : List Char),
      Document.MembersSpelled first members u ∧ s = u ++ rest

def itemsFrom (steps : Nat) (s : List Char) : List Tree × Close × Option (List Char) :=
  match scanValue steps s with
  | (t, none) => ([t], .error .malformed, none)
  | (t, some rest) => (scanItems steps false rest).map (t :: ·) id

def membersFrom (steps : Nat) (s : List Char) : List (Key × Tree) × Close × Option (List Char) :=
  let key : Key := ⟨(scanString s).read, (scanString s).skip⟩
  let last (t : Tree) : List (Key × Tree) × Close × Option (List Char) :=
    ([(key, t)], .error .malformed, none)
  match (scanString s).rest with
  | .error fault => last (.leaf (.missing fault))
  | .ok rest =>
    match dropSpace rest with
    | [] => last (.leaf (.missing .ended))
    | ':' :: rest =>
      match scanValue steps rest with
      | (t, none) => last t
      | (t, some rest) => (scanMembers steps false rest).map ((key, t) :: ·) id
    | _ => last (.leaf (.missing .malformed))

namespace Spells

variable {steps : Nat} (ih : Spells steps) {s rest : List Char}
include ih

theorem of_itemsFrom (h : (itemsFrom steps s).2.2 = some rest) :
    ∃ (gap : List Char) (d : Document) (t : List Char) (items : List Document) (u : List Char),
      Blanks gap ∧ d.Spelled t ∧ Document.ItemsSpelled false items u ∧
        s = gap ++ (t ++ (u ++ rest)) := by
  unfold itemsFrom at h
  cases scanned : scanValue steps s with
  | mk tree left =>
    rw [scanned] at h
    cases left with
    | none => cases h
    | some left =>
      obtain ⟨d, gap, t, blanks, spelled, rfl⟩ := ih.value (congrArg Prod.snd scanned)
      obtain ⟨items, u, others, rfl⟩ := ih.items h
      exact ⟨gap, d, t, items, u, blanks, spelled, others, rfl⟩

theorem of_membersFrom (h : (membersFrom steps s).2.2 = some rest) :
    ∃ (key : Literal) (colon : List Char) (d : Document) (t : List Char)
      (members : List (Literal × Document)) (u : List Char), Colon colon ∧ d.Spelled t ∧
        Document.MembersSpelled false members u ∧
        '"' :: s = key.text ++ (colon ++ (t ++ (u ++ rest))) := by
  unfold membersFrom at h
  cases named : (scanString s).rest with
  | error fault =>
    rw [named] at h
    cases h
  | ok left =>
    obtain ⟨key, rfl⟩ := exists_marks_of_scan named
    obtain ⟨before, blanksBefore, splitBefore⟩ := exists_blanks left
    rw [named] at h
    dsimp only at h
    split at h
    case h_1 => cases h
    case h_3 => cases h
    case h_2 left found =>
      cases scanned : scanValue steps left with
      | mk tree after =>
        rw [scanned] at h
        cases after with
        | none => cases h
        | some after =>
          obtain ⟨d, gap, t, blanks, spelled, rfl⟩ := ih.value (congrArg Prod.snd scanned)
          obtain ⟨members, u, others, rfl⟩ := ih.members h
          refine ⟨key, before ++ ':' :: gap, d, t, members, u,
            ⟨before, gap, blanksBefore, blanks, rfl⟩, spelled, others, ?_⟩
          rw [splitBefore, found, Literal.text]
          simp only [List.append_assoc, List.cons_append, List.nil_append]

theorem value_succ (h : (scanValue (steps + 1) s).2 = some rest) :
    ∃ (d : Document) (gap t : List Char), Blanks gap ∧ d.Spelled t ∧ s = gap ++ (t ++ rest) := by
  obtain ⟨gap, blanks, split⟩ := exists_blanks s
  rw [scanValue] at h
  split at h
  case h_1 => cases h
  case h_2 s found =>
    obtain ⟨items, body, spelled, rfl⟩ := ih.items h
    exact ⟨.array items, gap, _, blanks, ⟨body, spelled, rfl⟩, by rw [split, found]; rfl⟩
  case h_3 s found =>
    obtain ⟨members, body, spelled, rfl⟩ := ih.members h
    exact ⟨.object members, gap, _, blanks, ⟨body, spelled, rfl⟩, by rw [split, found]; rfl⟩
  case h_4 c s _ _ found =>
    cases scanned : (scanScalar c s).rest with
    | error fault => simp [scanned, Except.toOption] at h
    | ok left =>
      obtain ⟨d, t, spelled, same⟩ := document_of_scanScalar scanned
      obtain rfl : left = rest := by simpa [scanned, Except.toOption] using h
      exact ⟨d, gap, t, blanks, spelled, by rw [split, found, same]⟩

theorem items_succ {first : Bool} (h : (scanItems (steps + 1) first s).2.2 = some rest) :
    ∃ (items : List Document) (u : List Char), Document.ItemsSpelled first items u ∧
      s = u ++ rest := by
  obtain ⟨gap, blanks, split⟩ := exists_blanks s
  rw [scanItems] at h
  split at h
  case h_1 => cases h
  case h_2 s found =>
    cases h
    exact ⟨[], _, ⟨gap, blanks, rfl⟩, by rw [split, found]; simp⟩
  case h_3 c s _ found =>
    cases first with
    | true =>
      obtain ⟨more, d, t, items, u, blanks', spelled, others, same⟩ := ih.of_itemsFrom h
      refine ⟨d :: items, _, ⟨gap ++ more, t, u, blanks.append blanks', spelled, others, rfl⟩, ?_⟩
      rw [split, found, same]
      simp only [List.append_assoc]
    | false =>
      simp only [Bool.false_eq_true, if_false] at h
      split at h
      case isFalse => cases h
      case isTrue comma =>
        obtain ⟨after, blanksAfter, splitAfter⟩ := exists_blanks s
        split at h
        case h_1 => cases h
        case h_2 =>
          obtain ⟨more, d, t, items, u, blanks', spelled, others, same⟩ := ih.of_itemsFrom h
          -- Blanks on both sides of the comma belong to the gap before the item.
          have comma' : Gap false (gap ++ ',' :: (after ++ more)) :=
            ⟨gap, after ++ more, blanks, blanksAfter.append blanks', rfl⟩
          refine ⟨d :: items, _, ⟨_, t, u, comma', spelled, others, rfl⟩, ?_⟩
          rw [split, found, comma, splitAfter, same]
          simp only [List.append_assoc, List.cons_append]

theorem members_succ {first : Bool} (h : (scanMembers (steps + 1) first s).2.2 = some rest) :
    ∃ (members : List (Literal × Document)) (u : List Char),
      Document.MembersSpelled first members u ∧ s = u ++ rest := by
  obtain ⟨gap, blanks, split⟩ := exists_blanks s
  rw [scanMembers] at h
  split at h
  case h_1 => cases h
  case h_2 s found =>
    cases h
    exact ⟨[], _, ⟨gap, blanks, rfl⟩, by rw [split, found]; simp⟩
  case h_3 c s _ found =>
    cases first with
    | true =>
      simp only [if_true] at h
      split at h
      case isFalse => cases h
      case isTrue quote =>
        obtain ⟨key, colon, d, t, members, u, hc, spelled, others, same⟩ := ih.of_membersFrom h
        refine ⟨(key, d) :: members, _, ⟨gap, colon, t, u, blanks, hc, spelled, others, rfl⟩, ?_⟩
        rw [split, found, quote, same]
        simp only [List.append_assoc]
    | false =>
      simp only [Bool.false_eq_true, if_false] at h
      split at h
      case isFalse => cases h
      case isTrue comma =>
        obtain ⟨after, blanksAfter, splitAfter⟩ := exists_blanks s
        split at h
        case h_2 => cases h
        case h_3 => cases h
        case h_1 found' =>
          obtain ⟨key, colon, d, t, members, u, hc, spelled, others, same⟩ := ih.of_membersFrom h
          refine ⟨(key, d) :: members, _, ⟨gap ++ ',' :: after, colon, t, u,
            ⟨gap, after, blanks, blanksAfter, rfl⟩, hc, spelled, others, rfl⟩, ?_⟩
          rw [split, found, comma, splitAfter, found', same]
          simp only [List.append_assoc, List.cons_append]

end Spells

theorem spells (steps : Nat) : Spells steps := by
  induction steps with
  | zero => exact ⟨nofun, nofun, nofun⟩
  | succ steps ih => exact ⟨ih.value_succ, ih.items_succ, ih.members_succ⟩

/-- A text that is scanned to its end is the text of a document. -/
theorem exists_text_of_scan {s : String} {tree : Tree} {rest : List Char}
    (h : scan s = (tree, some rest)) (blanks : Blanks rest) : ∃ d : Document, d.Text s := by
  obtain ⟨d, gap, t, before, spelled, same⟩ := (spells _).value (congrArg Prod.snd h)
  exact ⟨d, gap, t, rest, before, blanks, spelled, same⟩

namespace Codec

variable {α : Type}

theorem decode_text (c : Codec α) {d : Document} {s : String} (h : d.Text s) :
    c.decode s = c.read .top d.tree := by
  obtain ⟨rest, blanks, scanned⟩ := scan_text h
  have none : dropSpace rest = [] := by
    have dropped := dropSpace_append blanks []
    rwa [List.append_nil] at dropped
  simp only [decode, scanned, Option.map_some, none]
  cases c.read .top d.tree <;> rfl

theorem exists_text_of_decode {c : Codec α} {s : String} {a : α} (h : c.decode s = .ok a) :
    ∃ d : Document, d.Text s := by
  cases scanned : scan s with
  | mk tree rest =>
    simp only [decode, scanned] at h
    obtain ⟨found, -, h⟩ := bind_eq_ok_iff.1 h
    split at h
    case h_2 => cases h
    case h_1 ended =>
      obtain ⟨rest, rfl, none⟩ := Option.map_eq_some_iff.1 ended
      obtain ⟨gap, blanks, split⟩ := exists_blanks rest
      rw [none, List.append_nil] at split
      exact exists_text_of_scan scanned (split ▸ blanks)

end Codec

end BuildCapture.Json
