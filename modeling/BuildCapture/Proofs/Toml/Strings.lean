import BuildCapture.Toml.Text
import BuildCapture.Toml.Writer
set_option autoImplicit false

namespace BuildCapture.Toml

/-- How a character stands between double quotes, over one line or several. -/
inductive Escape (lines : Bool) (c : Char) : List Char → Prop where
  | letter {l : Char} (named : unescape l = some c) : Escape lines c ['\\', l]
  | code (small : c.toNat < 128) : Escape lines c ('\\' :: 'u' :: '0' :: '0' :: hexPair c.toNat)
  | itself (quote : c ≠ '"') (slash : c ≠ '\\') (shown : isPlain c ∨ lines ∧ c = '\n') :
    Escape lines c [c]

theorem not_isControl_iff {c : Char} : isControl c = false ↔ isPlain c = true ∨ c = '\n' := by
  by_cases tab : c = '\t'
  · subst tab
    decide
  · by_cases feed : c = '\n'
    · subst feed
      decide
    · simp [isControl, isPlain, tab, feed]

theorem escape_escaped (lines : Bool) {c : Char} (quote : c ≠ '"') :
    Escape lines c (escaped lines c) := by
  unfold escaped
  split
  case h_6 =>
    cases lines with
    | true => exact .itself quote (by decide) (.inr ⟨rfl, rfl⟩)
    | false => exact .letter rfl
  case h_7 slash feed =>
    split
    case isTrue control =>
      refine .code ?_
      simp only [isControl, Bool.or_eq_true, Bool.and_eq_true, decide_eq_true_eq] at control
      omega
    case isFalse shown =>
      rw [Bool.not_eq_true, not_isControl_iff] at shown
      exact .itself quote slash (.inl (shown.resolve_right feed))
  all_goals exact .letter rfl

theorem Escape.head {lines : Bool} {c : Char} {w : List Char} (h : Escape lines c w) :
    ∃ x t, w = x :: t ∧ x ≠ '"' ∧ x ≠ '\r' ∧ (x = '\n' → c = '\n') := by
  cases h with
  | letter => exact ⟨_, _, rfl, by decide, by decide, nofun⟩
  | code => exact ⟨_, _, rfl, by decide, by decide, nofun⟩
  | itself quote _ shown =>
    refine ⟨c, [], rfl, quote, ?_, id⟩
    rintro rfl
    revert shown
    decide +revert

/-- Only one of the first two quotes in a row stands bare, and over several lines only. -/
theorem escapedAll_cons {lines : Bool} {k : Nat} {c : Char} (s : List Char)
    (h : ¬ (c = '"' ∧ lines ∧ k < 2)) :
    ∃ w, Escape lines c w ∧ escapedAll lines k (c :: s) = w ++ escapedAll lines 0 s := by
  by_cases quote : c = '"'
  · subst quote
    rw [not_and] at h
    exact ⟨['\\', '"'], .letter rfl, by rw [escapedAll, if_pos rfl, if_neg (h rfl)]; rfl⟩
  · exact ⟨_, escape_escaped lines quote, by rw [escapedAll, if_neg quote]⟩

theorem letter_of_unescape {l c : Char} (h : unescape l = some c) :
    codeDigits l = none ∧ isBlank l = false ∧ l ≠ '\n' ∧ l ≠ '\r' := by
  unfold unescape at h
  split at h
  case h_8 => cases h
  all_goals decide

theorem hexValue_toUpper_digitChar :
    ∀ d < 16, Json.hexValue (Nat.digitChar d).toUpper = some d := by
  decide

theorem hexPair_eq {n : Nat} (small : n < 128) :
    ∃ a b, hexPair n = [a, b] ∧ Json.hexValue a = some (n / 16) ∧
      Json.hexValue b = some (n % 16) ∧ 16 * (n / 16) + n % 16 = n :=
  ⟨_, _, rfl, hexValue_toUpper_digitChar _ (by omega), hexValue_toUpper_digitChar _ (by omega),
    Nat.div_add_mod n 16⟩

theorem charOfCode?_toNat (c : Char) : charOfCode? c.toNat = some c := by
  rw [charOfCode?, if_pos (show c.toNat.isValidChar from c.valid)]
  exact congrArg some c.ofNat_toNat

theorem readBasic_escape {c : Char} {w : List Char} (h : Escape false c w) (rest : List Char) :
    readBasic .nothing (w ++ rest) = (readBasic .nothing rest).map (prepend c) := by
  cases h with
  | @letter l named =>
    obtain ⟨noCode, -⟩ := letter_of_unescape named
    simp [readBasic, noCode, named]
  | code small =>
    obtain ⟨a, b, shown, high, low, value⟩ := hexPair_eq small
    have zero : Json.hexValue '0' = some 0 := by decide
    simp [readBasic, shown, codeDigits, high, low, zero, value, charOfCode?_toNat]
  | itself quote slash shown =>
    have plain : isPlain c = true := by simpa using shown
    simp [readBasic, quote, slash, plain]

theorem readBasicLines_escape {c : Char} {w : List Char} (h : Escape true c w) (rest : List Char) :
    readBasicLines .nothing (w ++ rest) = (readBasicLines .nothing rest).map (prepend c) := by
  cases h with
  | @letter l named =>
    obtain ⟨noCode, blank, feed, ret⟩ := letter_of_unescape named
    simp [readBasicLines, noCode, named, blank, feed, ret]
  | code small =>
    obtain ⟨a, b, shown, high, low, value⟩ := hexPair_eq small
    have zero : Json.hexValue '0' = some 0 := by decide
    have blank : isBlank 'u' = false := by decide
    simp [readBasicLines, shown, codeDigits, blank, high, low, zero, value, charOfCode?_toNat]
  | itself quote slash shown =>
    have ret : c ≠ '\r' := by
      rintro rfl
      revert shown
      decide
    have shown : isPlain c = true ∨ c = '\n' := by simpa using shown
    simp [readBasicLines, quote, slash, ret, if_pos shown]

theorem readBasic_escapedAll (quotes : Nat) (s rest : List Char) :
    readBasic .nothing (escapedAll false quotes s ++ '"' :: rest) = some (s, rest) := by
  induction s generalizing quotes with
  | nil => simp [escapedAll, readBasic]
  | cons c s ih =>
    have escapes : ¬ (c = '"' ∧ false ∧ quotes < 2) := fun bare => nomatch bare.2.1
    obtain ⟨w, escape, shown⟩ := escapedAll_cons s escapes
    rw [shown, List.append_assoc, readBasic_escape escape, ih, Option.map_some, prepend]

theorem closing_eq_none {q : Char} {s : List Char} (h : ¬ [q, q] <+: s) : closing q s = none := by
  unfold closing
  split
  case h_1 a b rest =>
    rw [if_neg]
    rintro ⟨rfl, rfl⟩
    exact h ⟨rest, rfl⟩
  case h_2 => rfl

theorem closing_replicate {q : Char} {n : Nat} {rest : List Char} (few : n ≤ 2)
    (h : rest.head? ≠ some q) :
    closing q (List.replicate n q ++ q :: q :: rest) = some (List.replicate n q, rest) := by
  have last : n = 0 ∨ n = 1 ∨ n = 2 := by omega
  obtain rfl | rfl | rfl := last
  · cases rest with
    | nil => simp [closing]
    | cons c rest =>
      have other : c ≠ q := by simpa using h
      simp [closing, other]
  · cases rest with
    | nil => simp [closing]
    | cons c rest =>
      have other : c ≠ q := by simpa using h
      simp [closing, List.replicate, other]
  · simp [closing, List.replicate]

theorem closing_replicate_succ {q : Char} {n : Nat} {rest : List Char} (few : n ≤ 1)
    (h : rest.head? ≠ some q) :
    closing q (List.replicate n q ++ q :: q :: q :: rest) =
      some (q :: List.replicate n q, rest) := by
  have closed := closing_replicate (Nat.succ_le_succ few) h
  rwa [List.replicate_succ', List.append_assoc, List.singleton_append, ← List.replicate_succ',
    List.replicate_succ] at closed

/-- Two quotes after a first one end the string: no third one stands bare in it. -/
theorem eq_replicate_of_escapedAll {k : Nat} {s rest : List Char} (few : k < 2)
    (h : ['"', '"'] <+: escapedAll true (k + 1) s ++ '"' :: '"' :: '"' :: rest) :
    ∃ n ≤ 1 - k, s = List.replicate n '"' := by
  cases s with
  | nil => exact ⟨0, Nat.zero_le _, rfl⟩
  | cons c s =>
    by_cases bare : c = '"' ∧ true ∧ k + 1 < 2
    case neg =>
      obtain ⟨_, escape, shown⟩ := escapedAll_cons s bare
      obtain ⟨x, _, rfl, quote, -⟩ := escape.head
      simp [shown, quote.symm] at h
    obtain ⟨rfl, -, first⟩ := bare
    obtain rfl : k = 0 := by omega
    cases s with
    | nil => exact ⟨1, Nat.le_refl _, rfl⟩
    | cons d s =>
      have full : ¬ (d = '"' ∧ true ∧ 2 < 2) := fun bare => Nat.lt_irrefl 2 bare.2.2
      obtain ⟨_, escape, shown⟩ := escapedAll_cons s full
      obtain ⟨x, _, rfl, quote, -⟩ := escape.head
      rw [escapedAll, if_pos rfl, if_pos ⟨rfl, first⟩, shown] at h
      simp [quote.symm] at h

theorem escapedAll_replicate {k n : Nat} (few : k + n ≤ 2) :
    escapedAll true k (List.replicate n '"') = List.replicate n '"' := by
  induction n generalizing k with
  | zero => rfl
  | succ n ih =>
    have room : k < 2 := by omega
    rw [List.replicate_succ, escapedAll, if_pos rfl, if_pos ⟨rfl, room⟩, ih (by omega)]

theorem readBasicLines_of_closing {rest : List Char} {closed : List Char × List Char}
    (h : closing '"' rest = some closed) :
    readBasicLines .nothing ('"' :: rest) = some closed := by
  simp [readBasicLines, h]

theorem readBasicLines_of_not_closing {rest : List Char} (h : closing '"' rest = none) :
    readBasicLines .nothing ('"' :: rest) =
      (readBasicLines .nothing rest).map (prepend '"') := by
  simp [readBasicLines, h]

theorem readBasicLines_escapedAll {k : Nat} {s rest : List Char} (few : k ≤ 2)
    (ends : rest.head? ≠ some '"') :
    readBasicLines .nothing (escapedAll true k s ++ '"' :: '"' :: '"' :: rest) =
      some (s, rest) := by
  induction s generalizing k with
  | nil => exact readBasicLines_of_closing (closing_replicate (Nat.zero_le 2) ends)
  | cons c s ih =>
    by_cases bare : c = '"' ∧ true ∧ k < 2
    case neg =>
      obtain ⟨w, escape, shown⟩ := escapedAll_cons s bare
      rw [shown, List.append_assoc, readBasicLines_escape escape, ih (Nat.zero_le 2),
        Option.map_some, prepend]
    obtain ⟨rfl, -, room⟩ := bare
    rw [escapedAll, if_pos rfl, if_pos ⟨rfl, room⟩, List.cons_append]
    by_cases two : ['"', '"'] <+: escapedAll true (k + 1) s ++ '"' :: '"' :: '"' :: rest
    · obtain ⟨n, le, rfl⟩ := eq_replicate_of_escapedAll room two
      rw [escapedAll_replicate (by omega)]
      exact readBasicLines_of_closing (closing_replicate_succ (by omega) ends)
    · rw [readBasicLines_of_not_closing (closing_eq_none two), ih (by omega), Option.map_some,
        prepend]

theorem hasRun_iff {c : Char} {n : Nat} {s : List Char} :
    hasRun c n s = true ↔ List.replicate n c <:+: s := by
  induction s with
  | nil => simp [hasRun]
  | cons d s ih =>
    rw [hasRun, Bool.or_eq_true, ih, List.infix_cons_iff, List.prefix_iff_eq_take,
      List.length_replicate, decide_eq_true_iff, eq_comm]

theorem readLiteral_append {s rest : List Char} (plain : ∀ c ∈ s, isPlain c = true)
    (bare : '\'' ∉ s) : readLiteral (s ++ '\'' :: rest) = some (s, rest) := by
  induction s with
  | nil => simp [readLiteral]
  | cons c s ih =>
    rw [List.forall_mem_cons] at plain
    rw [List.mem_cons, not_or] at bare
    simp [readLiteral, Ne.symm bare.1, plain.1, ih plain.2 bare.2, prepend]

theorem readLiteralLines_of_closing {rest : List Char} {closed : List Char × List Char}
    (h : closing '\'' rest = some closed) : readLiteralLines ('\'' :: rest) = some closed := by
  simp [readLiteralLines, h]

theorem readLiteralLines_of_not_closing {rest : List Char} (h : closing '\'' rest = none) :
    readLiteralLines ('\'' :: rest) = (readLiteralLines rest).map (prepend '\'') := by
  simp [readLiteralLines, h]

theorem eq_replicate_of_not_infix {q : Char} {s rest : List Char} (runs : ¬ [q, q, q] <:+: q :: s)
    (h : [q, q] <+: s ++ q :: q :: q :: rest) : ∃ n ≤ 1, s = List.replicate n q := by
  match s with
  | [] => exact ⟨0, Nat.zero_le _, rfl⟩
  | [c] =>
    obtain rfl : q = c := by simpa using h
    exact ⟨1, Nat.le_refl _, rfl⟩
  | c :: d :: s =>
    obtain ⟨rfl, rfl⟩ : q = c ∧ q = d := by simpa using h
    exact absurd ⟨[], s, rfl⟩ runs

theorem readLiteralLines_append {s rest : List Char} (shown : ∀ c ∈ s, isControl c = false)
    (runs : ¬ ['\'', '\'', '\''] <:+: s) (ends : rest.head? ≠ some '\'') :
    readLiteralLines (s ++ '\'' :: '\'' :: '\'' :: rest) = some (s, rest) := by
  induction s with
  | nil => exact readLiteralLines_of_closing (closing_replicate (Nat.zero_le 2) ends)
  | cons c s ih =>
    rw [List.forall_mem_cons, not_isControl_iff] at shown
    have readsOn := ih shown.2 fun run => runs (run.trans (List.suffix_cons c s).isInfix)
    rw [List.cons_append]
    by_cases quote : c = '\''
    · subst quote
      by_cases two : ['\'', '\''] <+: s ++ '\'' :: '\'' :: '\'' :: rest
      · obtain ⟨n, le, rfl⟩ := eq_replicate_of_not_infix runs two
        exact readLiteralLines_of_closing (closing_replicate_succ le ends)
      · rw [readLiteralLines_of_not_closing (closing_eq_none two), readsOn, Option.map_some,
          prepend]
    · have ret : c ≠ '\r' := by
        rintro rfl
        exact absurd shown.1 (by decide)
      simp [readLiteralLines, quote, ret, shown.1, readsOn, prepend]

theorem readString_basic {s : List Char} (h : ¬ ['"', '"'] <+: s) :
    readString ('"' :: s) = (readBasic .nothing s).map ofChars := by
  unfold readString
  split
  case h_1 rest three =>
    cases three
    exact absurd ⟨rest, rfl⟩ h
  case h_2 one =>
    cases one
    rfl
  all_goals simp_all

theorem readString_literal {s : List Char} (h : ¬ ['\'', '\''] <+: s) :
    readString ('\'' :: s) = (readLiteral s).map ofChars := by
  unfold readString
  split
  case h_3 rest three =>
    cases three
    exact absurd ⟨rest, rfl⟩ h
  case h_4 one =>
    cases one
    rfl
  all_goals simp_all

theorem readString_basicWire (s : List Char) {rest : List Char} (ends : rest.head? ≠ some '"') :
    readString (basicWire s ++ rest) = some (String.ofList s, rest) := by
  have single : ¬ ['"', '"'] <+: escapedAll false 0 s ++ '"' :: rest := by
    cases s with
    | nil =>
      rintro ⟨t, two⟩
      cases two
      exact ends rfl
    | cons c s =>
      have escapes : ¬ (c = '"' ∧ false ∧ 0 < 2) := fun bare => nomatch bare.2.1
      obtain ⟨_, escape, shown⟩ := escapedAll_cons s escapes
      obtain ⟨x, _, rfl, quote, -⟩ := escape.head
      simp [shown, quote.symm]
  have wire : basicWire s ++ rest = '"' :: (escapedAll false 0 s ++ '"' :: rest) := by
    simp [basicWire]
  rw [wire, readString_basic single, readBasic_escapedAll, Option.map_some, ofChars]

theorem readString_literalWire {s rest : List Char} (plain : ∀ c ∈ s, isPlain c = true)
    (bare : '\'' ∉ s) (ends : rest.head? ≠ some '\'') :
    readString (literalWire s ++ rest) = some (String.ofList s, rest) := by
  have single : ¬ ['\'', '\''] <+: s ++ '\'' :: rest := by
    rintro ⟨t, two⟩
    cases s with
    | nil =>
      cases two
      exact ends rfl
    | cons c s =>
      obtain ⟨rfl, -⟩ := List.cons.inj two
      exact bare List.mem_cons_self
  have wire : literalWire s ++ rest = '\'' :: (s ++ '\'' :: rest) := by simp [literalWire]
  rw [wire, readString_literal single, readLiteral_append plain bare, Option.map_some, ofChars]

theorem dropLineEnd_lineStart {s shown : List Char} (ret : shown.head? ≠ some '\r')
    (feed : shown.head? = some '\n' → '\n' ∈ s) : dropLineEnd (lineStart s ++ shown) = shown := by
  unfold lineStart
  split
  case isTrue => rfl
  case isFalse none =>
    rw [List.nil_append]
    unfold dropLineEnd
    split
    case h_1 => exact absurd (feed rfl) none
    case h_2 => exact absurd rfl ret
    case h_3 => rfl

theorem readString_basicLinesWire (s : List Char) {rest : List Char}
    (ends : rest.head? ≠ some '"') :
    readString (basicLinesWire s ++ rest) = some (String.ofList s, rest) := by
  have dropped : dropLineEnd (lineStart s ++ (escapedAll true 0 s ++ '"' :: '"' :: '"' :: rest)) =
      escapedAll true 0 s ++ '"' :: '"' :: '"' :: rest := by
    cases s with
    | nil => rfl
    | cons c s =>
      by_cases bare : c = '"' ∧ true ∧ 0 < 2
      · obtain ⟨rfl, -⟩ := bare
        exact dropLineEnd_lineStart (by simp [escapedAll]) (by simp [escapedAll])
      · obtain ⟨_, escape, shown⟩ := escapedAll_cons s bare
        obtain ⟨x, _, rfl, -, ret, feed⟩ := escape.head
        refine dropLineEnd_lineStart (by simpa [shown] using ret) fun first => ?_
        have itself : c = '\n' := feed (by simpa [shown] using first)
        exact itself ▸ List.mem_cons_self
  have wire : basicLinesWire s ++ rest =
      '"' :: '"' :: '"' :: (lineStart s ++ (escapedAll true 0 s ++ '"' :: '"' :: '"' :: rest)) := by
    simp [basicLinesWire]
  rw [wire, readString, dropped, readBasicLines_escapedAll (Nat.zero_le 2) ends, Option.map_some,
    ofChars]

theorem readString_literalLinesWire {s rest : List Char} (shown : ∀ c ∈ s, isControl c = false)
    (runs : ¬ ['\'', '\'', '\''] <:+: s) (ends : rest.head? ≠ some '\'') :
    readString (literalLinesWire s ++ rest) = some (String.ofList s, rest) := by
  have dropped : dropLineEnd (lineStart s ++ (s ++ '\'' :: '\'' :: '\'' :: rest)) =
      s ++ '\'' :: '\'' :: '\'' :: rest := by
    cases s with
    | nil => rfl
    | cons c s =>
      have ret : c ≠ '\r' := by
        rintro rfl
        exact absurd (shown _ List.mem_cons_self) (by decide)
      refine dropLineEnd_lineStart (by simpa using ret) fun first => ?_
      have itself : c = '\n' := by simpa using first
      exact itself ▸ List.mem_cons_self
  have wire : literalLinesWire s ++ rest =
      '\'' :: '\'' :: '\'' :: (lineStart s ++ (s ++ '\'' :: '\'' :: '\'' :: rest)) := by
    simp [literalLinesWire]
  rw [wire, readString, dropped, readLiteralLines_append shown runs ends, Option.map_some, ofChars]

theorem readString_stringWire (s rest : List Char) (double : rest.head? ≠ some '"')
    (single : rest.head? ≠ some '\'') :
    readString (stringWire s ++ rest) = some (String.ofList s, rest) := by
  have shown : s.any isControl = false → ∀ c ∈ s, isControl c = false := by
    intro h c mem
    simpa using List.any_eq_false.1 h c mem
  -- The cases are the forms in the order in which the writer tries them.
  unfold stringWire
  dsimp only
  split
  case isTrue => exact readString_basicWire s double
  split
  case isTrue literal =>
    obtain ⟨control, bare, line⟩ := literal
    refine readString_literalWire (fun c mem => ?_) bare single
    have plain := not_isControl_iff.1 (shown (by simpa using control) c mem)
    exact plain.resolve_right fun feed => line (feed ▸ mem)
  split
  case isTrue => exact readString_basicLinesWire s double
  split
  case isTrue literalLines =>
    obtain ⟨control, runs⟩ := literalLines
    refine readString_literalLinesWire (shown (by simpa using control)) (fun run => ?_) single
    rw [Bool.not_eq_true', Bool.eq_false_iff] at runs
    exact runs (hasRun_iff.2 run)
  split
  case isTrue => exact readString_basicLinesWire s double
  case isFalse => exact readString_basicWire s double

end BuildCapture.Toml
