import BuildCapture.Proofs.Command.Options
import BuildCapture.Proofs.Time.RoundTrip
set_option autoImplicit false

namespace BuildCapture.Command

theorem rootSpecs_distinct : ∀ spec ∈ rootSpecs, spec.Distinct rootSpecs := by
  intro spec known
  obtain rfl := List.mem_singleton.1 known
  exact ⟨rfl, by simp [rootSpecs, fileSpec], by decide⟩

theorem snapshotSpecs_distinct : ∀ spec ∈ snapshotSpecs, spec.Distinct snapshotSpecs := by
  simp only [snapshotSpecs, List.forall_mem_cons]
  refine ⟨⟨rfl, ?_, by decide⟩, ⟨rfl, nofun, by decide⟩, ⟨rfl, nofun, by decide⟩,
    ⟨rfl, nofun, by decide⟩, ⟨rfl, ?_, by decide⟩, ⟨rfl, nofun, by decide⟩, nofun⟩ <;>
  simp [fileSpec]

/-- The words that ask for a snapshot: a configuration file or none, and the options given for the
snapshot. -/
inductive SnapshotWords (config : Option String) (given : List Given) : List String → Prop where
  | intro {root options ending : List String}
    (named : OptionsSpelled rootSpecs [] (config.toList.map (⟨"config", ·⟩)) root)
    (spelled : OptionsSpelled snapshotSpecs [] given options) (ends : OptionsEnd ending []) :
    SnapshotWords config given (root ++ "snapshot" :: (options ++ ending))

def SnapshotOptions.ofGiven (build : String) (given : List Given) : SnapshotOptions where
  build := build
  delegated := !(values given "delegated").isEmpty
  now := (value? given "now").bind readTime?
  payload := !(values given "payload").isEmpty
  message := values given "message"
  pretty := !(values given "pretty").isEmpty

theorem readAll_eq_ok_iff {specs : List OptionSpec} (distinct : ∀ spec ∈ specs, spec.Distinct specs)
    {words : List String} {given : List Given} :
    readAll specs words = .ok given ↔ ∃ spelled ending, words = spelled ++ ending ∧
      OptionsSpelled specs [] given spelled ∧ OptionsEnd ending [] := by
  have read : readOptions specs [] words = .ok (given, []) ↔ _ := readOptions_eq_ok_iff distinct
  simp only [List.nil_append] at read
  have whole : readAll specs words = .ok given ↔ readOptions specs [] words = .ok (given, []) := by
    rw [readAll]
    cases readOptions specs [] words with
    | error stop => simp [bind, Except.bind]
    | ok found =>
      obtain ⟨found, left⟩ := found
      cases left <;>
        simp [bind, Except.bind, pure, Except.pure, throw, throwThe, MonadExceptOf.throw]
  rw [whole, read]
  simp

theorem readSnapshot_eq_ok_iff {words : List String} {o : SnapshotOptions} :
    readSnapshot words = .ok o ↔ ∃ given build, readAll snapshotSpecs words = .ok given ∧
      value? given "build" = some build ∧ o = .ofGiven build given := by
  rw [readSnapshot]
  cases readAll snapshotSpecs words with
  | error stop => simp [bind, Except.bind]
  | ok given =>
    cases named : value? given "build" with
    | none => simp [bind, Except.bind, named, throw, throwThe, MonadExceptOf.throw]
    | some build =>
      simp [bind, Except.bind, named, pure, Except.pure, SnapshotOptions.ofGiven, eq_comm]

theorem eq_config_of_spelled {given : List Given} {words : List String}
    (h : OptionsSpelled rootSpecs [] given words) :
    given = (value? given "config").toList.map (⟨"config", ·⟩) := by
  cases h with
  | nil => rfl
  | cons known spelled fresh accepted rest =>
    obtain rfl := List.mem_singleton.1 known
    cases rest with
    | nil => simp [value?, values, fileSpec]
    | cons known spelled fresh accepted rest =>
      obtain rfl := List.mem_singleton.1 known
      simp [fileSpec] at fresh

theorem Arguments.read_snapshot_iff {words : List String} {config : Option String}
    {o : SnapshotOptions} :
    Arguments.read words = .ok ⟨config, .snapshot o⟩ ↔ ∃ given build,
      SnapshotWords config given words ∧ value? given "build" = some build ∧
        o = .ofGiven build given := by
  constructor
  · intro h
    obtain ⟨⟨root, rest⟩, readRoot, h⟩ := bind_eq_ok_iff.1 h
    replace readRoot := mapError_eq_ok_iff.1 readRoot
    dsimp only at h
    split at h
    case h_1 =>
      obtain ⟨_, _, h⟩ := bind_eq_ok_iff.1 h
      cases h
    case h_2 rest =>
      obtain ⟨o', readOptions, same⟩ := bind_eq_ok_iff.1 h
      cases same
      obtain ⟨given, build, read, named, rfl⟩ :=
        readSnapshot_eq_ok_iff.1 (mapError_eq_ok_iff.1 readOptions)
      obtain ⟨options, ending, rfl, spelled, ends⟩ :=
        (readAll_eq_ok_iff snapshotSpecs_distinct).1 read
      obtain ⟨later, rootWords, rootEnding, rfl, rfl, rootSpelled, rootEnds⟩ :=
        (readOptions_eq_ok_iff rootSpecs_distinct).1 readRoot
      cases rootEnds with
      | word plain rest =>
        refine ⟨given, build, .intro ?_ spelled ends, named, rfl⟩
        rw [← eq_config_of_spelled rootSpelled]
        exact rootSpelled
    case h_3 => cases h
    case h_4 => cases h
  · rintro ⟨given, build, @⟨root, options, ending, rootSpelled, spelled, ends⟩, named, rfl⟩
    have plain : isPlain "snapshot" = true := by simp [isPlain, classify]
    have readRoot := readOptions_of_spelled rootSpecs_distinct rootSpelled
      (.word plain (options ++ ending))
    have read := (readAll_eq_ok_iff snapshotSpecs_distinct).2 ⟨_, _, rfl, spelled, ends⟩
    have readOptions := readSnapshot_eq_ok_iff.2 ⟨given, build, read, named, rfl⟩
    rw [Arguments.read, readRoot]
    simp only [bind, Except.bind, mapError_ok, readOptions]
    cases config <;> rfl

theorem accepts_of_spelled {specs : List OptionSpec} {before given : List Given}
    {words : List String} (h : OptionsSpelled specs before given words) :
    ∀ g ∈ given, ∃ spec ∈ specs, spec.name = g.name ∧ spec.accepts g.value = true := by
  induction h with
  | nil => nofun
  | cons known spelled fresh accepted _ ih =>
    exact List.forall_mem_cons.2 ⟨⟨_, known, rfl, accepted⟩, ih⟩

theorem Arguments.named_of_read {words : List String} {config : Option String}
    {o : SnapshotOptions} (h : Arguments.read words = .ok ⟨config, .snapshot o⟩) :
    config ≠ some "" ∧ o.build ≠ "" := by
  obtain ⟨given, build, ⟨rootSpelled, spelled, -⟩, named, rfl⟩ := read_snapshot_iff.1 h
  constructor
  · rintro rfl
    obtain ⟨spec, known, -, accepted⟩ := accepts_of_spelled rootSpelled _ (.head _)
    obtain rfl := List.mem_singleton.1 known
    simp [fileSpec] at accepted
  · rintro rfl
    obtain ⟨g, hg, empty⟩ := List.mem_map.1 (List.mem_of_head? named)
    obtain ⟨listed, same⟩ := List.mem_filter.1 hg
    obtain ⟨spec, known, name, accepted⟩ := accepts_of_spelled spelled g listed
    rw [of_decide_eq_true same] at name
    rw [empty] at accepted
    simp only [snapshotSpecs, List.mem_cons, List.not_mem_nil, or_false] at known
    rcases known with rfl | rfl | rfl | rfl | rfl | rfl <;> simp [fileSpec] at name accepted

@[simp] theorem values_append (given more : List Given) (name : String) :
    values (given ++ more) name = values given name ++ values more name := by simp [values]

theorem mem_values {given : List Given} {g : Given} (h : g ∈ given) {name : String}
    (named : g.name = name) : g.value ∈ values given name :=
  List.mem_map_of_mem (List.mem_filter.2 ⟨h, by simpa using named⟩)

/-- Whatever options fit can be spelled: each is known and accepts its value, and only a repeatable
one stands there twice. -/
theorem exists_optionsSpelled {specs : List OptionSpec} {before later : List Given}
    (fits : ∀ g ∈ later, ∃ spec ∈ specs, spec.name = g.name ∧ spec.accepts g.value = true ∧
      (spec.takesValue = false → g.value = "") ∧
      (spec.repeatable = true ∨ (values (before ++ later) g.name).length ≤ 1)) :
    ∃ words, OptionsSpelled specs before later words := by
  induction later generalizing before with
  | nil => exact ⟨[], .nil⟩
  | cons g later ih =>
    obtain ⟨first, others⟩ := List.forall_mem_cons.1 fits
    obtain ⟨spec, known, name, accepted, flag, once⟩ := first
    obtain ⟨words, spelled⟩ : ∃ words, OptionsSpelled specs (before ++ [g]) later words :=
      ih (by simpa using others)
    obtain ⟨_, value⟩ := g
    obtain rfl : spec.name = _ := name
    have fresh : spec.repeatable = true ∨ ∀ g ∈ before, g.name ≠ spec.name := by
      refine once.imp_right fun once g hg same => ?_
      have earlier : 0 < (values before spec.name).length :=
        List.length_pos_of_mem (mem_values hg same)
      have here : 0 < (values (⟨spec.name, value⟩ :: later) spec.name).length :=
        List.length_pos_of_mem (mem_values List.mem_cons_self rfl)
      rw [values_append, List.length_append] at once
      exact absurd once (by dsimp only; omega)
    cases valued : spec.takesValue with
    | true => exact ⟨_, .cons known (.joined valued (.longWith value)) fresh accepted spelled⟩
    | false =>
      obtain rfl : value = "" := flag valued
      exact ⟨_, .cons known (.flag valued .long) fresh accepted spelled⟩

def SnapshotOptions.table (o : SnapshotOptions) : List (String × List String) :=
  let flag (on : Bool) := if on then [""] else []
  [("build", [o.build]), ("now", (o.now.map Rfc3339.write).toList), ("delegated", flag o.delegated),
    ("payload", flag o.payload), ("message", o.message), ("pretty", flag o.pretty)]

def SnapshotOptions.given (o : SnapshotOptions) : List Given :=
  o.table.flatMap fun e => e.2.map (⟨e.1, ·⟩)

theorem SnapshotOptions.values_given (o : SnapshotOptions) (name : String) :
    values o.given name = o.table.flatMap fun e => if e.1 = name then e.2 else [] := by
  rw [given]
  induction o.table with
  | nil => rfl
  | cons e table ih =>
    rw [List.flatMap_cons, values_append, ih, List.flatMap_cons]
    split
    case isTrue same => simp [values, same, List.filter_map, Function.comp_def]
    case isFalse other => simp [values, other]

theorem SnapshotOptions.ofGiven_given (o : SnapshotOptions) : ofGiven o.build o.given = o := by
  obtain ⟨build, delegated, now, payload, message, pretty⟩ := o
  have read : (now.map Rfc3339.write).bind readTime? = now := by
    cases now with
    | none => rfl
    | some t => simp [readTime?, Rfc3339.read_write, Except.toOption]
  simp [ofGiven, value?, values_given, table, read]
  cases delegated <;> cases payload <;> cases pretty <;> simp

theorem SnapshotOptions.values_of_mem (o : SnapshotOptions) :
    ∀ e ∈ o.table, values o.given e.1 = e.2 := by
  simp [values_given, table]

theorem SnapshotOptions.table_fits (o : SnapshotOptions) (named : o.build ≠ "") :
    ∀ e ∈ o.table, ∃ spec ∈ snapshotSpecs, spec.name = e.1 ∧
      (∀ value ∈ e.2, spec.accepts value = true ∧ (spec.takesValue = false → value = "")) ∧
      (spec.repeatable = true ∨ e.2.length ≤ 1) := by
  have now : ∀ value ∈ (o.now.map Rfc3339.write).toList, (readTime? value).isSome = true := by
    intro value hv
    obtain ⟨t, -, rfl⟩ := Option.map_eq_some_iff.1 (Option.mem_toList.1 hv)
    simp [readTime?, Rfc3339.read_write, Except.toOption]
  simp only [table, List.forall_mem_cons]
  refine ⟨?_, ?_, ?_, ?_, ?_, ?_, nofun⟩
  · exact ⟨_, .head _, rfl, by simp [fileSpec, named], by simp⟩
  · refine ⟨_, .tail _ (.tail _ (.head _)), rfl, fun value hv => ⟨now value hv, nofun⟩, .inr ?_⟩
    cases o.now <;> simp
  · exact ⟨_, .tail _ (.head _), rfl, by simp, .inr (by cases o.delegated <;> simp)⟩
  · exact ⟨_, .tail _ (.tail _ (.tail _ (.head _))), rfl, by simp,
      .inr (by cases o.payload <;> simp)⟩
  · exact ⟨_, .tail _ (.tail _ (.tail _ (.tail _ (.head _)))), rfl, by simp, .inl rfl⟩
  · exact ⟨_, .tail _ (.tail _ (.tail _ (.tail _ (.tail _ (.head _))))), rfl, by simp,
      .inr (by cases o.pretty <;> simp)⟩

theorem Arguments.exists_words {config : Option String} (file : config ≠ some "")
    (o : SnapshotOptions) (named : o.build ≠ "") :
    ∃ words, Arguments.read words = .ok ⟨config, .snapshot o⟩ := by
  have root : ∃ words, OptionsSpelled rootSpecs [] (config.toList.map (⟨"config", ·⟩)) words := by
    refine exists_optionsSpelled fun g hg => ?_
    obtain ⟨path, hp, rfl⟩ := List.mem_map.1 hg
    obtain rfl := Option.mem_toList.1 hp
    refine ⟨_, List.mem_singleton_self _, rfl, ?_, nofun, .inr ?_⟩
    · simpa [fileSpec] using file
    · simp [values]
  have options : ∃ words, OptionsSpelled snapshotSpecs [] o.given words := by
    refine exists_optionsSpelled fun g hg => ?_
    obtain ⟨e, listed, hg⟩ := List.mem_flatMap.1 hg
    obtain ⟨value, hv, rfl⟩ := List.mem_map.1 hg
    obtain ⟨spec, known, name, fits, once⟩ := o.table_fits named e listed
    rw [List.nil_append, o.values_of_mem e listed]
    exact ⟨spec, known, name, (fits value hv).1, (fits value hv).2, once⟩
  obtain ⟨root, rootSpelled⟩ := root
  obtain ⟨words, spelled⟩ := options
  refine ⟨root ++ "snapshot" :: (words ++ []), read_snapshot_iff.2 ⟨o.given, o.build,
    .intro rootSpelled spelled .nothing, ?_, o.ofGiven_given.symm⟩⟩
  rw [value?, o.values_of_mem _ (.head _)]
  rfl

end BuildCapture.Command
