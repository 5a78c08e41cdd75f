import BuildCapture.Time.DateFormat
set_option autoImplicit false

namespace BuildCapture

namespace Pattern

theorem readFrom_shift {state next : State} {c : Char} (h : shift state c = some next)
    (rest : List Char) : readFrom state (c :: rest) = readFrom next rest := by
  rw [readFrom.eq_3, h]

theorem readFrom_complete {state : State} {c : Char} (h : shift state c = none)
    (rest : List Char) : readFrom state (c :: rest) =
      (complete state c).bind fun items => (readFrom .plain rest).map (items ++ ·) := by
  rw [readFrom.eq_3, h]
  cases complete state c <;> cases readFrom .plain rest <;> rfl

theorem readFrom_nil {state : State} {items : List Item} (h : readFrom state [] = some items) :
    state = .plain ∧ items = [] := by
  cases state <;> simp_all [readFrom]

theorem readFrom_append {state : State} {s : List Char} {items : List Item}
    (h : readFrom state s = some items) (rest : List Char) :
    readFrom state (s ++ rest) = (readFrom .plain rest).map (items ++ ·) := by
  induction s generalizing state items with
  | nil =>
    obtain ⟨rfl, rfl⟩ := readFrom_nil h
    simp
  | cons c s ih =>
    rw [List.cons_append]
    cases shifted : shift state c with
    | some next =>
      rw [readFrom_shift shifted] at h ⊢
      exact ih h
    | none =>
      rw [readFrom_complete shifted] at h ⊢
      obtain ⟨completed, hc, h⟩ := Option.bind_eq_some_iff.1 h
      obtain ⟨others, ho, rfl⟩ := Option.map_eq_some_iff.1 h
      rw [hc, Option.bind_some, ih ho, Option.map_map]
      simp [Function.comp_def]

theorem looseOffset_not_mem_ofLetter {c : Char} {items : List Item} (h : ofLetter c = some items) :
    .looseOffset ∉ items := by
  unfold ofLetter at h
  split at h <;> cases h <;> decide

theorem number_of_padded {padding : Padding} {c : Char} {items : List Item}
    (h : complete (.specifier (some padding)) c = some items) :
    ∃ q, items = [.number q padding] := by
  obtain ⟨letters, -, h⟩ := Option.bind_eq_some_iff.1 h
  obtain ⟨item, padded, h⟩ := Option.bind_eq_some_iff.1 h
  unfold repad at padded
  split at padded
  · cases padded
    cases h
    exact ⟨_, rfl⟩
  · cases padded

theorem alternate_of_complete {state : State} {c : Char} {items : List Item}
    (h : complete state c = some items) (loose : .looseOffset ∈ items) :
    state = .alternate ∧ c = 'z' := by
  unfold complete at h
  split at h
  case h_2 => exact absurd loose (looseOffset_not_mem_ofLetter h)
  case h_3 =>
    obtain ⟨q, rfl⟩ := number_of_padded h
    simp at loose
  case h_4 => exact ⟨rfl, rfl⟩
  -- Every other piece is a text, a fraction or an offset with all its parts.
  all_goals cases h <;> simp at loose

theorem specifier_of_shift_alternate {state : State} {c : Char}
    (h : shift state c = some .alternate) : state = .specifier none ∧ c = '#' := by
  unfold shift at h
  split at h
  case h_2 =>
    refine ⟨rfl, ?_⟩
    unfold afterPercent at h
    split at h
    · cases h
    · cases h
    · split at h
      · rfl
      all_goals cases h
  all_goals simp at h

theorem plain_of_shift_specifier {state : State} {c : Char}
    (h : shift state c = some (.specifier none)) : state = .plain ∧ c = '%' := by
  unfold shift at h
  split at h
  case h_1 => exact ⟨rfl, rfl⟩
  case h_2 =>
    unfold afterPercent at h
    split at h
    · cases h
    · cases h
    · split at h <;> cases h
  all_goals simp at h

/-- The loose offset begins in `s`, in front of which the reader is in `state`: the state may have
begun it already, and else it stands after a text that leaves no specifier open. -/
def LooseFrom (state : State) (s : List Char) : Prop :=
  (state = .alternate ∧ ∃ after, s = 'z' :: after) ∨
  (state = .specifier none ∧ ∃ after, s = '#' :: 'z' :: after) ∨
  ∃ before after, s = before ++ '%' :: '#' :: 'z' :: after ∧ (readFrom state before).isSome

theorem looseFrom_of_mem {state : State} {s : List Char} {items : List Item}
    (h : readFrom state s = some items) (loose : .looseOffset ∈ items) : LooseFrom state s := by
  induction s generalizing state items with
  | nil =>
    obtain ⟨-, rfl⟩ := readFrom_nil h
    simp at loose
  | cons c s ih =>
    cases shifted : shift state c with
    | some next =>
      rw [readFrom_shift shifted] at h
      rcases ih h loose with ⟨rfl, after, rfl⟩ | ⟨rfl, after, rfl⟩ | ⟨before, after, rfl, whole⟩
      · obtain ⟨rfl, rfl⟩ := specifier_of_shift_alternate shifted
        exact .inr (.inl ⟨rfl, after, rfl⟩)
      · obtain ⟨rfl, rfl⟩ := plain_of_shift_specifier shifted
        exact .inr (.inr ⟨[], after, rfl, rfl⟩)
      · exact .inr (.inr ⟨c :: before, after, rfl, by rwa [readFrom_shift shifted]⟩)
    | none =>
      rw [readFrom_complete shifted] at h
      obtain ⟨completed, hc, h⟩ := Option.bind_eq_some_iff.1 h
      obtain ⟨others, ho, rfl⟩ := Option.map_eq_some_iff.1 h
      rcases List.mem_append.1 loose with loose | loose
      · obtain ⟨rfl, rfl⟩ := alternate_of_complete hc loose
        exact .inl ⟨rfl, s, rfl⟩
      · rcases ih ho loose with ⟨plain, -⟩ | ⟨plain, -⟩ | ⟨before, after, rfl, whole⟩
        · cases plain
        · cases plain
        · refine .inr (.inr ⟨c :: before, after, rfl, ?_⟩)
          rw [readFrom_complete shifted, hc]
          simpa using whole

theorem readFrom_loose (after : List Char) :
    readFrom .plain ('%' :: '#' :: 'z' :: after) =
      (readFrom .plain after).map (.looseOffset :: ·) := by
  rw [readFrom_shift rfl, readFrom_shift rfl, readFrom_complete rfl]
  rfl

/-- A pattern with the specifier `%#z`, which stands behind a pattern. -/
def IsLoose (pattern : String) : Prop :=
  ∃ before after, pattern = before ++ "%#z" ++ after ∧ (read before).isSome

theorem mem_read_iff {pattern : String} {items : List Item} (h : read pattern = some items) :
    .looseOffset ∈ items ↔ IsLoose pattern := by
  constructor
  · intro loose
    rcases looseFrom_of_mem h loose with ⟨plain, -⟩ | ⟨plain, -⟩ | ⟨before, after, hs, whole⟩
    · cases plain
    · cases plain
    · refine ⟨String.ofList before, String.ofList after, String.ext ?_, by simpa [read] using whole⟩
      simpa using hs
  · rintro ⟨before, after, rfl, whole⟩
    obtain ⟨first, hf⟩ := Option.isSome_iff_exists.1 whole
    have h : readFrom .plain (before.toList ++ '%' :: '#' :: 'z' :: after.toList) = some items := by
      simpa [read] using h
    rw [readFrom_append hf, readFrom_loose] at h
    simp only [Option.map_map, Option.map_eq_some_iff] at h
    obtain ⟨others, -, rfl⟩ := h
    simp

theorem itemWire_eq_none_iff {t : Instant} {item : Item} :
    itemWire t item = none ↔ item = .looseOffset := by
  cases item <;> simp [itemWire]

theorem wire_eq_none_iff {items : List Item} {t : Instant} :
    wire items t = none ↔ .looseOffset ∈ items := by
  rw [wire, Option.map_eq_none_iff]
  induction items with
  | nil => simp
  | cons item items ih =>
    rw [List.mapM_cons, List.mem_cons, ← ih, eq_comm (a := Item.looseOffset),
      ← itemWire_eq_none_iff (t := t)]
    cases itemWire t item <;> cases items.mapM (itemWire t) <;> simp

end Pattern

/-- Whether an instant can be printed is settled by the pattern. -/
theorem DateFormat.write_eq_none_iff (f : DateFormat) (t : Instant) :
    f.write t = none ↔ Pattern.IsLoose f.pattern := by
  rw [write, Option.map_eq_none_iff, Pattern.wire_eq_none_iff, Pattern.mem_read_iff f.reads]

end BuildCapture
