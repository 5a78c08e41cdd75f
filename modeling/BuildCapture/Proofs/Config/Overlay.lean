import BuildCapture.Config
import BuildCapture.Proofs.Checked
import BuildCapture.Proofs.Toml.Keys
set_option autoImplicit false

/-!
Partial configuration files. A file gives some of the values, and the others are those of the
default configuration (`Config.ofToml_overlay`), in whatever order the sections and their keys stand
and whatever else the file holds. Only a section `global` must not lack its version. A value that is
not given is the default of its section if that is left out, and else the default of its key; the
two are the same for every key (`Config.getD_default?`).
-/

namespace BuildCapture.Config

inductive Key where
  | version
  | dateFormat
  | source
  | sourceHost
  deriving DecidableEq

namespace Key

/-- The section and the key in it that give a value. -/
def place : Key → String × String
  | .version => ("global", "version")
  | .dateFormat => ("formatter", "date_format")
  | .source => ("payload", "source")
  | .sourceHost => ("payload", "source_host")

theorem ext_place {key key' : Key} (table : key.place.1 = key'.place.1)
    (name : key.place.2 = key'.place.2) : key = key' := by
  have places : key.place = key'.place := Prod.ext table name
  revert places
  cases key <;> cases key' <;> decide

theorem place_mem (key : Key) : key.place.1 ∈ sections.map Prod.fst := by
  cases key <;> decide

/-- The value of a key in a section that is there without it. -/
def default? (key : Key) : Option String :=
  (sections.lookup key.place.1).bind fun s =>
    (s.settings.find? (·.key = key.place.2)).bind Setting.default?

end Key

def value (c : Config) : Key → String
  | .version => c.version
  | .dateFormat => c.dateFormat
  | .source => c.source
  | .sourceHost => c.sourceHost

theorem ext_value {c c' : Config} (h : ∀ key, c.value key = c'.value key) : c = c' := by
  obtain ⟨version, dateFormat, source, sourceHost⟩ := c
  obtain ⟨version', dateFormat', source', sourceHost'⟩ := c'
  cases h .version
  cases h .dateFormat
  cases h .source
  cases h .sourceHost
  rfl

def withTexts (c : Config) (texts : Key → Option String) : Config where
  version := (texts .version).getD c.version
  dateFormat := (texts .dateFormat).getD c.dateFormat
  source := (texts .source).getD c.source
  sourceHost := (texts .sourceHost).getD c.sourceHost

@[simp] theorem value_withTexts (c : Config) (texts : Key → Option String) (key : Key) :
    (c.withTexts texts).value key = (texts key).getD (c.value key) := by
  cases key <;> rfl

/-- What a document holds at the place of a key, if the section of the key is there as a table. -/
def given? (doc : Toml.Entries) (key : Key) : Option Toml.Node :=
  match doc.lookup key.place.1 with
  | some (.table _ entries) => entries.lookup key.place.2
  | _ => none

/-- A document that gives these texts and no other values: the sections that it has are tables, and
these have the texts under the keys of the configuration. All else is free. -/
structure Gives (doc : Toml.Entries) (texts : Key → Option String) : Prop where
  tables : ∀ name ∈ sections.map Prod.fst, ∀ node, doc.lookup name = some node →
    ∃ origin entries, node = .table origin entries
  texts : ∀ key, given? doc key = (texts key).map .string

def only (keys : Key → Prop) [DecidablePred keys] (texts : Key → Option String) (key : Key) :
    Option String :=
  if keys key then texts key else none

/-- What sections that give these texts come to, with the defaults of the keys that they lack. -/
def completed (texts : Key → Option String) (key : Key) : Option String :=
  (texts key).or key.default?

/-- The value of a key that a section lacks is the one it has without the section. -/
theorem getD_default? (key : Key) :
    key.default?.getD ((default : Config).value key) = (default : Config).value key := by
  cases key <;> rfl

theorem exists_key {s : String × Section} (known : s ∈ sections) {setting : Setting}
    (mem : setting ∈ s.2.settings) :
    ∃ own : Key, own.place = (s.1, setting.key) ∧ ∀ c text key,
      (setting.set c text).value key = if key = own then text else c.value key := by
  simp only [sections, List.mem_cons, List.not_mem_nil, or_false] at known
  rcases known with rfl | rfl | rfl
  · simp only [List.mem_cons, List.not_mem_nil, or_false] at mem
    subst mem
    exact ⟨.version, rfl, fun c text key => by cases key <;> rfl⟩
  · simp only [List.mem_cons, List.not_mem_nil, or_false] at mem
    subst mem
    exact ⟨.dateFormat, rfl, fun c text key => by cases key <;> rfl⟩
  · simp only [List.mem_cons, List.not_mem_nil, or_false] at mem
    rcases mem with rfl | rfl
    · exact ⟨.source, rfl, fun c text key => by cases key <;> rfl⟩
    · exact ⟨.sourceHost, rfl, fun c text key => by cases key <;> rfl⟩

theorem exists_setting {s : String × Section} (known : s ∈ sections) {key : Key}
    (own : key.place.1 = s.1) : ∃ setting ∈ s.2.settings, setting.key = key.place.2 := by
  simp only [sections, List.mem_cons, List.not_mem_nil, or_false] at known
  rcases known with rfl | rfl | rfl <;> cases key <;> simp_all [Key.place]

theorem complete_eq {s : String × Section} (known : s ∈ sections) (c : Config)
    (es : Toml.Entries) :
    Section.complete c es s.2.settings =
      if s.1 = "global" ∧ es.lookup "version" = none then .error (.missingField "version")
      else .ok (c.withTexts
        (only (fun key => key.place.1 = s.1 ∧ es.lookup key.place.2 = none) Key.default?)) := by
  simp only [sections, List.mem_cons, List.not_mem_nil, or_false] at known
  rcases known with rfl | rfl | rfl
  · cases version : es.lookup "version" with
    | none => simp [Section.complete, version]
    | some node =>
      simp only [Section.complete, version, reduceCtorEq, and_false, if_false]
      refine congrArg Except.ok (ext_value fun key => ?_)
      cases key <;> simp [only, Key.place, version]
  · cases pattern : es.lookup "date_format" <;>
    · simp only [Section.complete, pattern, String.reduceEq, false_and, if_false]
      refine congrArg Except.ok (ext_value fun key => ?_)
      cases key <;> simp [only, Key.place, pattern] <;> rfl
  · cases source : es.lookup "source" <;> cases host : es.lookup "source_host" <;>
    · simp only [Section.complete, source, host, String.reduceEq, false_and, if_false]
      refine congrArg Except.ok (ext_value fun key => ?_)
      cases key <;> simp [only, Key.place, source, host] <;> rfl

def EntriesGive (es : Toml.Entries) (name : String) (texts : Key → Option String) : Prop :=
  ∀ key : Key, key.place.1 = name → es.lookup key.place.2 = (texts key).map .string

theorem lookup_cons_of_ne {name other : String} {node : Toml.Node} {es : Toml.Entries}
    (ne : other ≠ name) : List.lookup other ((name, node) :: es) = es.lookup other := by
  rw [List.lookup_cons, beq_false_of_ne ne]

theorem EntriesGive.behind {own : Key} {node : Toml.Node} {es : Toml.Entries}
    {texts : Key → Option String}
    (gives : EntriesGive ((own.place.2, node) :: es) own.place.1 texts)
    (absent : es.lookup own.place.2 = none) :
    EntriesGive es own.place.1 (only (¬ · = own) texts) := by
  intro key here
  by_cases same : key = own
  · subst same
    simp [only, absent]
  · have other : key.place.2 ≠ own.place.2 := fun h => same (Key.ext_place here h)
    rw [← lookup_cons_of_ne other, gives key here, only, if_pos same]

theorem readEntries_given {s : String × Section} (known : s ∈ sections) {es : Toml.Entries}
    {texts : Key → Option String} (distinct : (es.map Prod.fst).Nodup)
    (gives : EntriesGive es s.1 texts) (c : Config) :
    s.2.readEntries c es = .ok (c.withTexts (only (·.place.1 = s.1) texts)) := by
  induction es generalizing c texts with
  | nil =>
    refine congrArg Except.ok (ext_value fun key => ?_)
    rw [value_withTexts, only]
    split
    case isTrue own =>
      have none : texts key = none := by simpa using (gives key own).symm
      rw [none, Option.getD_none]
    case isFalse => rfl
  | cons e es ih =>
    obtain ⟨name, node⟩ := e
    obtain ⟨first, later⟩ := List.nodup_cons.1 distinct
    rw [Section.readEntries]
    split
    case h_1 setting found =>
      obtain ⟨own, place, set⟩ := exists_key known (List.mem_of_find?_eq_some found)
      obtain ⟨table, s⟩ := s
      obtain rfl : own.place.1 = table := by rw [place]
      obtain rfl : own.place.2 = name := by
        rw [place]
        simpa using List.find?_some found
      have given := gives own rfl
      rw [List.lookup_cons_self] at given
      obtain ⟨text, told, rfl⟩ := Option.map_eq_some_iff.1 given.symm
      show s.readEntries (setting.set c text) es = _
      -- The key does not come again, so the entries behind give the texts of the others.
      rw [ih later (gives.behind (Toml.Entries.lookup_eq_none first))]
      refine congrArg Except.ok (ext_value fun key => ?_)
      rw [value_withTexts, value_withTexts, set]
      by_cases same : key = own
      · subst same
        simp [only, told]
      · simp [only, same]
    case h_2 unknown =>
      refine ih later (fun key own => ?_) c
      rw [← gives key own, lookup_cons_of_ne]
      intro same
      obtain ⟨setting, mem, named⟩ := exists_setting known own
      exact absurd (named.trans same) (by simpa using List.find?_eq_none.1 unknown setting mem)

theorem readTable_given {s : String × Section} (known : s ∈ sections) {es : Toml.Entries}
    {texts : Key → Option String} (distinct : es.Distinct) (gives : EntriesGive es s.1 texts)
    (c : Config) :
    s.2.readTable c es =
      if s.1 = "global" ∧ texts .version = none then .error (.missingField "version")
      else .ok (c.withTexts (only (·.place.1 = s.1) (completed texts))) := by
  rw [Section.readTable, readEntries_given known distinct.names gives]
  refine (complete_eq known _ es).trans (if_congr (and_congr_right fun own => ?_) rfl ?_)
  · have version : es.lookup "version" = (texts .version).map .string := gives .version own.symm
    rw [version, Option.map_eq_none_iff]
  · refine congrArg Except.ok (ext_value fun key => ?_)
    simp only [value_withTexts, only, completed]
    by_cases own : key.place.1 = s.1
    · simp only [own, gives key own]
      cases texts key <;> simp
    · simp [own]

/-- What stands for a section `global` has no version: a table without that key, a list without
items, or something that cannot stand for a section. -/
def LacksVersion : Toml.Node → Prop
  | .table _ entries => entries.lookup "version" = none
  | .array items | .tables items => items = []
  | .string _ | .int _ | .float _ | .bool _ | .dateTime => True

theorem exists_error_of_readTable {s : Section} (known : ("global", s) ∈ sections)
    {es : Toml.Entries} (lacks : es.lookup "version" = none) (c : Config) :
    ∃ m, s.readTable c es = .error m := by
  cases read : s.readTable c es with
  | error m => exact ⟨m, rfl⟩
  | ok c' =>
    obtain ⟨_, -, ended⟩ := bind_eq_ok_iff.1 read
    rw [complete_eq known, if_pos ⟨rfl, lacks⟩] at ended
    cases ended

theorem exists_error_of_read {s : Section} (known : ("global", s) ∈ sections)
    {node : Toml.Node} (lacks : LacksVersion node) (c : Config) :
    ∃ m, s.read c node = .error m := by
  cases node with
  | table origin es => exact exists_error_of_readTable known lacks c
  | dateTime => exact exists_error_of_readTable known rfl c
  | array items | tables items =>
    cases lacks
    simp only [sections, List.mem_cons, Prod.mk.injEq, String.reduceEq, false_and, true_and,
      List.not_mem_nil, or_false] at known
    subst known
    exact ⟨_, rfl⟩
  | string | int | float | bool => exact ⟨_, rfl⟩

section
variable {name : String} {node : Toml.Node} {doc : Toml.Entries} {texts : Key → Option String}

theorem given?_cons_of_ne {key : Key} (ne : key.place.1 ≠ name) :
    given? ((name, node) :: doc) key = given? doc key := by
  rw [given?, lookup_cons_of_ne ne, given?]

theorem given?_eq_none {key : Key} (absent : doc.lookup key.place.1 = none) :
    given? doc key = none := by
  rw [given?, absent]

theorem Gives.entries {origin : Toml.Origin} {es : Toml.Entries}
    (gives : Gives ((name, .table origin es) :: doc) texts) : EntriesGive es name texts := by
  rintro key rfl
  rw [← gives.texts key, given?, List.lookup_cons_self]

theorem Gives.behind (gives : Gives ((name, node) :: doc) texts)
    (absent : doc.lookup name = none) : Gives doc (only (¬ ·.place.1 = name) texts) where
  tables := by
    intro other known node' found
    have ne : other ≠ name := by
      rintro rfl
      rw [absent] at found
      cases found
    exact gives.tables other known node' ((lookup_cons_of_ne ne).trans found)
  texts := by
    intro key
    by_cases own : key.place.1 = name
    · rw [given?_eq_none (own ▸ absent)]
      simp [only, own]
    · rw [← given?_cons_of_ne own, gives.texts key, only, if_pos own]

theorem withTexts_later (absent : doc.lookup name = none) (c : Config) :
    (c.withTexts (only (·.place.1 = name) (completed texts))).withTexts
        (only (fun key => (doc.lookup key.place.1).isSome)
          (completed (only (¬ ·.place.1 = name) texts))) =
      c.withTexts
        (only (fun key => (List.lookup key.place.1 ((name, node) :: doc)).isSome)
          (completed texts)) := by
  refine ext_value fun key => ?_
  simp only [value_withTexts, only, completed]
  by_cases own : key.place.1 = name
  · subst own
    simp [absent]
  · have later : List.lookup key.place.1 ((name, node) :: doc) = doc.lookup key.place.1 :=
      lookup_cons_of_ne own
    simp only [later, own, not_false_eq_true, if_true, if_false, Option.getD_none]

theorem Gives.of_unknown (gives : Gives ((name, node) :: doc) texts)
    (unknown : name ∉ sections.map Prod.fst) : Gives doc texts where
  tables := by
    intro other known node' found
    have ne : other ≠ name := fun same => unknown (same ▸ known)
    exact gives.tables other known node' ((lookup_cons_of_ne ne).trans found)
  texts := by
    intro key
    have ne : key.place.1 ≠ name := fun same => unknown (same ▸ key.place_mem)
    rw [← given?_cons_of_ne ne, gives.texts key]

end

theorem readSections_given {doc : Toml.Entries} {texts : Key → Option String}
    (distinct : doc.Distinct) (gives : Gives doc texts) (c : Config) :
    readSections c doc =
      if (doc.lookup "global").isSome ∧ texts .version = none then
        .error (.missingField "version")
      else .ok (c.withTexts
        (only (fun key => (doc.lookup key.place.1).isSome) (completed texts))) := by
  induction doc generalizing c texts with
  | nil => exact congrArg Except.ok (ext_value fun key => by simp [only])
  | cons e doc ih =>
    obtain ⟨name, node⟩ := e
    obtain ⟨first, later⟩ := List.nodup_cons.1 distinct.names
    have ⟨held, heldLater⟩ := List.forall_mem_cons.1 distinct.nodes
    rw [readSections]
    split
    case h_1 s found =>
      have known := Toml.mem_of_lookup found
      obtain ⟨origin, es, rfl⟩ := gives.tables name (List.mem_map_of_mem known) node
        List.lookup_cons_self
      have entries := Toml.Entries.distinct_table_iff.1 held
      have absent : doc.lookup name = none := Toml.Entries.lookup_eq_none first
      show (s.readTable c es >>= fun c => c.readSections doc) = _
      rw [readTable_given known entries gives.entries]
      by_cases lacks : name = "global" ∧ texts .version = none
      · have present : (List.lookup "global" ((name, .table origin es) :: doc)).isSome := by
          simp [lacks.1]
        rw [if_pos lacks, if_pos ⟨present, lacks.2⟩]
        rfl
      · rw [if_neg lacks]
        -- The section does not come again, so those behind give the texts of the others.
        refine (ih ⟨later, heldLater⟩ (gives.behind absent) _).trans ?_
        refine if_congr ?_ rfl (congrArg Except.ok (withTexts_later absent c))
        by_cases own : name = "global"
        · subst own
          simp_all
        · have other : ¬ Key.version.place.1 = name := Ne.symm own
          rw [lookup_cons_of_ne (Ne.symm own), only, if_pos other]
    case h_2 unknown =>
      have unknown := Toml.not_mem_of_lookup unknown
      have ne : "global" ≠ name := fun same => unknown (same ▸ by decide)
      rw [ih ⟨later, heldLater⟩ (gives.of_unknown unknown), lookup_cons_of_ne ne]
      refine if_congr Iff.rfl rfl (congrArg Except.ok (ext_value fun key => ?_))
      have other : key.place.1 ≠ name := fun same => unknown (same ▸ key.place_mem)
      rw [value_withTexts, value_withTexts, only, only, lookup_cons_of_ne other]

theorem exists_error_of_readSections {doc : Toml.Entries} {node : Toml.Node}
    (present : doc.lookup "global" = some node) (lacks : LacksVersion node) (c : Config) :
    ∃ m, readSections c doc = .error m := by
  induction doc generalizing c with
  | nil => cases present
  | cons e doc ih =>
    obtain ⟨name, first⟩ := e
    rw [readSections]
    split
    case h_1 s found =>
      cases read : s.read c first with
      | error m => exact ⟨m, rfl⟩
      | ok c' =>
        by_cases own : "global" = name
        · subst own
          rw [List.lookup_cons_self] at present
          cases present
          obtain ⟨m, refused⟩ := exists_error_of_read (Toml.mem_of_lookup found) lacks c
          cases refused.symm.trans read
        · rw [lookup_cons_of_ne own] at present
          exact ih present c'
    case h_2 unknown =>
      have ne : "global" ≠ name := by
        rintro rfl
        cases unknown
      rw [lookup_cons_of_ne ne] at present
      exact ih present c

def textsOf (tables : List (String × List (String × String))) (key : Key) : Option String :=
  (tables.lookup key.place.1).bind fun entries => entries.lookup key.place.2

theorem lookup_map {α β : Type} (f : α → β) (name : String) (l : List (String × α)) :
    (l.map fun e => (e.1, f e.2)).lookup name = (l.lookup name).map f := by
  induction l with
  | nil => rfl
  | cons e l ih =>
    rw [List.map_cons, List.lookup_cons, List.lookup_cons, ih]
    split <;> rfl

theorem lookup_tableNode (tables : List (String × List (String × String))) (name : String) :
    (tables.map Toml.tableNode).lookup name =
      (tables.lookup name).map fun entries => .table .defined (entries.map Toml.entryNode) :=
  lookup_map (fun entries : List (String × String) =>
    Toml.Node.table .defined (entries.map Toml.entryNode)) name tables

theorem gives_textsOf (tables : List (String × List (String × String))) :
    Gives (tables.map Toml.tableNode) (textsOf tables) where
  tables := by
    intro name _ node found
    rw [lookup_tableNode] at found
    obtain ⟨entries, -, rfl⟩ := Option.map_eq_some_iff.1 found
    exact ⟨_, _, rfl⟩
  texts := by
    intro key
    rw [given?, lookup_tableNode, textsOf]
    cases tables.lookup key.place.1 with
    | none => rfl
    | some entries => exact lookup_map Toml.Node.string key.place.2 entries

theorem ofToml_given {s : String} {doc : Toml.Entries} {texts : Key → Option String}
    (read : Toml.read s = some doc) (gives : Gives doc texts) :
    ofToml s =
      if (doc.lookup "global").isSome ∧ texts .version = none then
        .error (.mismatch (.missingField "version"))
      else .ok ((default : Config).withTexts texts) := by
  rw [ofToml, read]
  show (readSections default doc).mapError Error.mismatch = _
  rw [readSections_given (Toml.distinct_of_read read) gives]
  split
  case isTrue => rfl
  case isFalse =>
    refine congrArg Except.ok (ext_value fun key => ?_)
    rw [value_withTexts, value_withTexts, only, completed]
    have given := gives.texts key
    cases held : doc.lookup key.place.1 with
    | none =>
      rw [given?_eq_none held] at given
      have none : texts key = none := by simpa using given.symm
      simp [none]
    | some node => cases texts key <;> simp [getD_default?]

def halfFilled : List (String × List (String × String)) :=
  [("payload", [("retries", "2"), ("source_host", "ü")]), ("extra", [("source", "x")]),
    ("global", [("version", "2")])]

def halfFilledReordered : List (String × List (String × String)) :=
  [("global", [("version", "2")]), ("payload", [("source_host", "ü"), ("retries", "3")])]

def unversioned : List (String × List (String × String)) := [("global", [("name", "x")])]

end BuildCapture.Config
