import BuildCapture.Command.Run
import BuildCapture.Proofs.Json.Lawful
set_option autoImplicit false

namespace BuildCapture.Command

def longWord (name value : String) : String :=
  String.ofList ('-' :: '-' :: (name.toList ++ '=' :: value.toList))

namespace OptionSpec

/-- The words that name an option, with the value that stands in the same word if there is one. -/
inductive Named (spec : OptionSpec) : Option String → String → Prop where
  | long : Named spec none (String.ofList ('-' :: '-' :: spec.name.toList))
  | longWith (value : String) :
    Named spec (some value) (longWord spec.name value)
  | short {letter : Char} (lettered : spec.letter = some letter) :
    Named spec none (String.ofList ['-', letter])
  | shortWith {letter : Char} (lettered : spec.letter = some letter) (value : String) :
    Named spec (some value) (String.ofList ('-' :: letter :: '=' :: value.toList))
  | attached {letter c : Char} (lettered : spec.letter = some letter) (ne : c ≠ '=')
    (tail : List Char) :
    Named spec (some (String.ofList (c :: tail))) (String.ofList ('-' :: letter :: c :: tail))

/-- The words that give an option, together with its value, which is empty for a flag. -/
inductive Spelled (spec : OptionSpec) : String → List String → Prop where
  | flag {word : String} (bare : spec.takesValue = false) (named : spec.Named none word) :
    Spelled spec "" [word]
  | joined {word value : String} (valued : spec.takesValue = true)
    (named : spec.Named (some value) word) : Spelled spec value [word]
  | separate {word value : String} (valued : spec.takesValue = true)
    (named : spec.Named none word) (plain : isPlain value = true) : Spelled spec value [word, value]

structure Distinct (specs : List OptionSpec) (spec : OptionSpec) : Prop where
  name : specs.find? (·.name = spec.name) = some spec
  letter : ∀ letter, spec.letter = some letter →
    specs.find? (·.letter = some letter) = some spec ∧ letter ≠ '-'
  wordy : spec.name ≠ "" ∧ '=' ∉ spec.name.toList

end OptionSpec

/-- The words that give options one after the other, behind those given before. -/
inductive OptionsSpelled (specs : List OptionSpec) :
    List Given → List Given → List String → Prop where
  | nil {before : List Given} : OptionsSpelled specs before [] []
  | cons {before later : List Given} {spec : OptionSpec} {value : String}
    {words others : List String} (known : spec ∈ specs) (spelled : spec.Spelled value words)
    (fresh : spec.repeatable = true ∨ ∀ g ∈ before, g.name ≠ spec.name)
    (accepted : spec.accepts value = true)
    (rest : OptionsSpelled specs (before ++ [⟨spec.name, value⟩]) later others) :
    OptionsSpelled specs before (⟨spec.name, value⟩ :: later) (words ++ others)

/-- Where options end, and which words are left. -/
inductive OptionsEnd : List String → List String → Prop where
  | nothing : OptionsEnd [] []
  | separator : OptionsEnd ["--"] []
  | word {word : String} (plain : isPlain word = true) (rest : List String) :
    OptionsEnd (word :: rest) (word :: rest)

section
variable {name : List Char} (h : '=' ∉ name)
include h

theorem span_name (rest : List Char) :
    (name ++ rest).takeWhile (· ≠ '=') = name ++ rest.takeWhile (· ≠ '=') ∧
      (name ++ rest).dropWhile (· ≠ '=') = rest.dropWhile (· ≠ '=') := by
  have all : ∀ c ∈ name, decide (c ≠ '=') = true := by
    intro c hc
    simpa using fun same : c = '=' => h (same ▸ hc)
  exact ⟨List.takeWhile_append_of_pos all, List.dropWhile_append_of_pos all⟩

theorem splitValue_name : splitValue name = (String.ofList name, none) := by
  obtain ⟨taken, left⟩ := span_name h []
  rw [List.append_nil] at taken left
  simp only [splitValue, taken, left]
  simp

theorem splitValue_append (value : List Char) :
    splitValue (name ++ '=' :: value) = (String.ofList name, some (String.ofList value)) := by
  obtain ⟨taken, left⟩ := span_name h ('=' :: value)
  simp only [splitValue, taken, left]
  simp

end

theorem eq_of_splitValue {s : List Char} {name : String} {value : Option String}
    (h : splitValue s = (name, value)) :
    s = name.toList ++ value.elim [] fun value => '=' :: value.toList := by
  have split : s = s.takeWhile (· ≠ '=') ++ s.dropWhile (· ≠ '=') :=
    List.takeWhile_append_dropWhile.symm
  unfold splitValue at h
  dsimp only at h
  split at h
  case h_1 c value left =>
    cases h
    have mark : c = '=' := by
      have first := List.head?_dropWhile_not (· ≠ '=') s
      rw [left] at first
      simpa using first
    rw [left, mark] at split
    simpa using split
  case h_2 left =>
    cases h
    rw [left, List.append_nil] at split
    simpa using split

theorem eq_of_classify_long {word name : String} {value : Option String}
    (h : classify word = .long name value) :
    word = String.ofList ('-' :: '-' ::
      (name.toList ++ value.elim [] fun value => '=' :: value.toList)) := by
  unfold classify at h
  split at h
  case h_2 s _ spelled =>
    have split : splitValue s = (name, value) := by
      cases h
      rfl
    rw [← eq_of_splitValue split, ← spelled, String.ofList_toList]
  all_goals cases h

theorem eq_of_classify_short {word : String} {letter : Char} {tail : List Char}
    (h : classify word = .short letter tail) : word = String.ofList ('-' :: letter :: tail) := by
  unfold classify at h
  split at h
  case h_3 spelled =>
    cases h
    rw [← spelled, String.ofList_toList]
  all_goals cases h

theorem eq_of_classify_separator {word : String} (h : classify word = .separator) :
    word = "--" := by
  unfold classify at h
  split at h
  case h_1 spelled => exact String.toList_inj.1 spelled
  all_goals cases h

theorem isPlain_iff {word : String} : isPlain word = true ↔ classify word = .plain := by
  unfold isPlain
  split <;> simp_all

theorem classify_long {spec : OptionSpec} {specs : List OptionSpec} (h : spec.Distinct specs)
    (rest : List Char) : classify (String.ofList ('-' :: '-' :: (spec.name.toList ++ rest))) =
      .long (splitValue (spec.name.toList ++ rest)).1
        (splitValue (spec.name.toList ++ rest)).2 := by
  obtain ⟨nonempty, -⟩ := h.wordy
  have cons : ∃ c name, spec.name.toList = c :: name :=
    List.exists_cons_of_ne_nil fun empty => nonempty (String.toList_inj.1 empty)
  obtain ⟨c, name, chars⟩ := cons
  rw [chars, classify, String.toList_ofList]
  rfl

theorem classify_short {letter : Char} (ne : letter ≠ '-') (tail : List Char) :
    classify (String.ofList ('-' :: letter :: tail)) = .short letter tail := by
  rw [classify, String.toList_ofList]
  split <;> simp_all

/-- The reader behind the name of an option: its value may stand in the same word or in the next
one. -/
def afterOption (specs : List OptionSpec) (given : List Given) (spec : OptionSpec)
    (inline : Option String) (rest : List String) : Except Stop (List Given × List String) :=
  if spec.takesValue then
    match inline, rest with
    | some value, rest => do readOptions specs (← addOption spec value given) rest
    | none, next :: rest =>
      if isPlain next then do readOptions specs (← addOption spec next given) rest
      else .error .usage
    | none, [] => .error .usage
  else if inline.isSome then .error .usage
  else do readOptions specs (← addOption spec "" given) rest

theorem isSome_tailValue (tail : List Char) : (tailValue tail).isSome = !tail.isEmpty := by
  unfold tailValue
  split <;> simp_all

theorem readOptions_long {specs : List OptionSpec} {given : List Given} {word name : String}
    {inline : Option String} (h : classify word = .long name inline) (rest : List String) :
    readOptions specs given (word :: rest) =
      match specs.find? (·.name = name) with
      | some spec => afterOption specs given spec inline rest
      | none => .error (if name = "help" ∧ inline.isNone then .help else .usage) := by
  rw [readOptions.eq_def]
  dsimp only
  rw [h]
  rfl

theorem readOptions_short {specs : List OptionSpec} {given : List Given} {word : String}
    {letter : Char} {tail : List Char} (h : classify word = .short letter tail)
    (rest : List String) :
    readOptions specs given (word :: rest) =
      match specs.find? (·.letter = some letter) with
      | some spec => afterOption specs given spec (tailValue tail) rest
      | none => .error (if letter = 'h' then .help else .usage) := by
  rw [readOptions.eq_def]
  dsimp only
  rw [h]
  simp only [afterOption, isSome_tailValue]
  cases specs.find? (·.letter = some letter) with
  | none => rfl
  | some spec => cases tail <;> rfl

theorem addOption_eq_ok_iff {spec : OptionSpec} {value : String} {given found : List Given} :
    addOption spec value given = .ok found ↔
      ((spec.repeatable = true ∨ ∀ g ∈ given, g.name ≠ spec.name) ∧ spec.accepts value = true) ∧
        found = given ++ [⟨spec.name, value⟩] := by
  have none : (values given spec.name).isEmpty = true ↔ ∀ g ∈ given, g.name ≠ spec.name := by
    simp [values]
  rw [addOption, ← none, ← Bool.or_eq_true, ← Bool.and_eq_true]
  split
  case isTrue may => simp [may, eq_comm]
  case isFalse may => simp [may]

section
variable {specs : List OptionSpec} {given : List Given} {word : String} {rest : List String}
  {result : List Given × List String}

theorem named_of_tail {spec : OptionSpec} {letter : Char} (lettered : spec.letter = some letter)
    (tail : List Char) :
    spec.Named (tailValue tail) (String.ofList ('-' :: letter :: tail)) := by
  unfold tailValue
  split
  case h_1 => exact .short lettered
  case h_2 value =>
    have named := OptionSpec.Named.shortWith lettered (String.ofList value)
    rwa [String.toList_ofList] at named
  case h_3 nonempty other =>
    cases tail with
    | nil => exact absurd rfl nonempty
    | cons c tail => exact .attached lettered (fun same => other tail (by rw [same])) tail

theorem readOptions_cons_cases (h : readOptions specs given (word :: rest) = .ok result) :
    (isPlain word = true ∧ result = (given, word :: rest)) ∨
    (word = "--" ∧ rest = [] ∧ result = (given, [])) ∨
    ∃ spec ∈ specs, ∃ inline, spec.Named inline word ∧
      afterOption specs given spec inline rest = .ok result := by
  cases shape : classify word with
  | plain =>
    rw [readOptions.eq_def] at h
    dsimp only at h
    rw [shape] at h
    exact .inl ⟨isPlain_iff.2 shape, (Except.ok.inj h).symm⟩
  | separator =>
    rw [readOptions.eq_def] at h
    dsimp only at h
    rw [shape] at h
    dsimp only at h
    split at h
    case isTrue last =>
      exact .inr (.inl ⟨eq_of_classify_separator shape, List.isEmpty_iff.1 last,
        (Except.ok.inj h).symm⟩)
    case isFalse => cases h
  | long name inline =>
    rw [readOptions_long shape] at h
    split at h
    case h_2 => cases h
    case h_1 spec found =>
      obtain rfl : spec.name = name := by simpa using List.find?_some found
      refine .inr (.inr ⟨spec, List.mem_of_find?_eq_some found, inline, ?_, h⟩)
      rw [eq_of_classify_long shape]
      cases inline with
      | none =>
        have named : spec.Named none _ := .long
        simpa using named
      | some value => exact .longWith value
  | short letter tail =>
    rw [readOptions_short shape] at h
    split at h
    case h_2 => cases h
    case h_1 spec found =>
      have lettered : spec.letter = some letter := by simpa using List.find?_some found
      refine .inr (.inr ⟨spec, List.mem_of_find?_eq_some found, tailValue tail, ?_, h⟩)
      rw [eq_of_classify_short shape]
      exact named_of_tail lettered tail

theorem exists_spelled_of_afterOption {spec : OptionSpec} {inline : Option String}
    (named : spec.Named inline word) (h : afterOption specs given spec inline rest = .ok result) :
    ∃ value words others more, word :: rest = words ++ others ∧ spec.Spelled value words ∧
      others.length ≤ rest.length ∧ addOption spec value given = .ok more ∧
        readOptions specs more others = .ok result := by
  unfold afterOption at h
  split at h
  case isTrue valued =>
    split at h
    case h_1 value =>
      obtain ⟨more, added, read⟩ := bind_eq_ok_iff.1 h
      exact ⟨value, [word], rest, more, rfl, .joined valued named, Nat.le_refl _, added, read⟩
    case h_2 next rest =>
      split at h
      case isTrue plain =>
        obtain ⟨more, added, read⟩ := bind_eq_ok_iff.1 h
        exact ⟨next, [word, next], rest, more, rfl, .separate valued named plain, Nat.le_succ _,
          added, read⟩
      case isFalse => cases h
    case h_3 => cases h
  case isFalse bare =>
    split at h
    case isTrue => cases h
    case isFalse inlineNone =>
      obtain rfl : inline = none := by simpa using inlineNone
      obtain ⟨more, added, read⟩ := bind_eq_ok_iff.1 h
      exact ⟨"", [word], rest, more, rfl, .flag (by simpa using bare) named, Nat.le_refl _, added,
        read⟩

end

theorem readOptions_end (specs : List OptionSpec) {ending left : List String}
    (ends : OptionsEnd ending left) (given : List Given) :
    readOptions specs given ending = .ok (given, left) := by
  cases ends with
  | nothing => rfl
  | separator =>
    have shape : classify "--" = .separator := by simp [classify]
    rw [readOptions.eq_def]
    simp [shape]
  | word plain rest =>
    rw [readOptions.eq_def]
    simp only [isPlain_iff.1 plain]

section
variable {specs : List OptionSpec}

theorem exists_spelled_of_readOptions {n : Nat} {words : List String} (few : words.length ≤ n)
    {before found : List Given} {left : List String}
    (h : readOptions specs before words = .ok (found, left)) :
    ∃ later spelled ending, found = before ++ later ∧ words = spelled ++ ending ∧
      OptionsSpelled specs before later spelled ∧ OptionsEnd ending left := by
  -- An option takes one of the words or two, so the induction is on how many there are.
  induction n generalizing words before with
  | zero =>
    obtain rfl : words = [] := List.eq_nil_of_length_eq_zero (Nat.le_zero.1 few)
    cases h
    exact ⟨[], [], [], by simp, rfl, .nil, .nothing⟩
  | succ n ih =>
    cases words with
    | nil =>
      cases h
      exact ⟨[], [], [], by simp, rfl, .nil, .nothing⟩
    | cons word rest =>
      rcases readOptions_cons_cases h with ⟨plain, same⟩ | ⟨rfl, rfl, same⟩ |
        ⟨spec, known, inline, named, read⟩
      · cases same
        exact ⟨[], [], word :: rest, by simp, rfl, .nil, .word plain rest⟩
      · cases same
        exact ⟨[], [], ["--"], by simp, rfl, .nil, .separator⟩
      · obtain ⟨value, words, others, more, split, spelled, fewer, added, read⟩ :=
          exists_spelled_of_afterOption named read
        obtain ⟨⟨fresh, accepted⟩, rfl⟩ := addOption_eq_ok_iff.1 added
        have few : others.length ≤ n := Nat.le_trans fewer (Nat.le_of_succ_le_succ few)
        obtain ⟨later, spelledLater, ending, rfl, rfl, options, ends⟩ := ih few read
        refine ⟨⟨spec.name, value⟩ :: later, words ++ spelledLater, ending, by simp, ?_,
          .cons known spelled fresh accepted options, ends⟩
        rw [split, List.append_assoc]

variable (distinct : ∀ spec ∈ specs, spec.Distinct specs)
include distinct

theorem readOptions_named {spec : OptionSpec} (known : spec ∈ specs) {inline : Option String}
    {word : String} (named : spec.Named inline word) (given : List Given) (rest : List String) :
    readOptions specs given (word :: rest) = afterOption specs given spec inline rest := by
  have own := distinct spec known
  cases named with
  | long =>
    have shape := classify_long own []
    rw [List.append_nil, splitValue_name own.wordy.2] at shape
    rw [readOptions_long shape]
    simp only [String.ofList_toList, own.name]
  | longWith value =>
    have shape := classify_long own ('=' :: value.toList)
    rw [splitValue_append own.wordy.2] at shape
    rw [longWord, readOptions_long shape]
    simp only [String.ofList_toList, own.name]
  | short lettered =>
    obtain ⟨found, ne⟩ := own.letter _ lettered
    rw [readOptions_short (classify_short ne []), found]
    rfl
  | shortWith lettered value =>
    obtain ⟨found, ne⟩ := own.letter _ lettered
    rw [readOptions_short (classify_short ne ('=' :: value.toList)), found]
    simp [tailValue]
  | @attached letter c lettered other tail =>
    obtain ⟨found, ne⟩ := own.letter _ lettered
    rw [readOptions_short (classify_short ne (c :: tail)), found]
    simp [tailValue, other]

theorem readOptions_spelled {spec : OptionSpec} (known : spec ∈ specs) {value : String}
    {words : List String} (spelled : spec.Spelled value words) (given : List Given)
    (rest : List String) :
    readOptions specs given (words ++ rest) =
      addOption spec value given >>= fun given => readOptions specs given rest := by
  cases spelled with
  | flag bare named =>
    rw [List.singleton_append, readOptions_named distinct known named]
    simp [afterOption, bare]
  | joined valued named =>
    rw [List.singleton_append, readOptions_named distinct known named]
    simp [afterOption, valued]
  | separate valued named plain =>
    rw [List.cons_append, List.singleton_append, readOptions_named distinct known named]
    simp [afterOption, valued, plain]

theorem readOptions_of_spelled {before later : List Given} {spelled : List String}
    (h : OptionsSpelled specs before later spelled) {ending left : List String}
    (ends : OptionsEnd ending left) :
    readOptions specs before (spelled ++ ending) = .ok (before ++ later, left) := by
  induction h with
  | nil => simpa using readOptions_end specs ends _
  | cons known spelled fresh accepted _ ih =>
    rw [List.append_assoc, readOptions_spelled distinct known spelled,
      addOption_eq_ok_iff.2 ⟨⟨fresh, accepted⟩, rfl⟩]
    simpa [bind, Except.bind] using ih

/-- Options are read from the words that spell them, and from no others, in the order of the
words. -/
theorem readOptions_eq_ok_iff {before found : List Given} {words left : List String} :
    readOptions specs before words = .ok (found, left) ↔
      ∃ later spelled ending, found = before ++ later ∧ words = spelled ++ ending ∧
        OptionsSpelled specs before later spelled ∧ OptionsEnd ending left := by
  constructor
  · exact exists_spelled_of_readOptions (Nat.le_refl _)
  · rintro ⟨later, spelled, ending, rfl, rfl, options, ends⟩
    exact readOptions_of_spelled distinct options ends

end

end BuildCapture.Command
