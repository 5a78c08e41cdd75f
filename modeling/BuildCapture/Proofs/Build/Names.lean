import BuildCapture.Proofs.Build.RoundTrip
import BuildCapture.Proofs.Json.Fields
set_option autoImplicit false

/-!
The names and the address of a recorded build. A reader takes them from the document of the build as
they are given there, and makes up the missing ones from the number and the project of this build
alone, in each build of a chain; all other fields are what the document tells (`ofJson_named`). So
the document that holds only what it must is read as a build that is made new.
-/

namespace BuildCapture

open Json

/-- The text that a document holds in some place, where a default stands in for a missing one. -/
inductive Json.Document.Fills (default : String) : Option Document → String → Prop where
  | missing : Fills default none default
  | null : Fills default (some .null) default
  | text {l : Literal} {s : String} (read : l.read = .ok s) : Fills default (some (.string l)) s

def Project.Minimal (p : Project) : Document → Prop :=
  Document.HoldsOnly [("name", Document.IsText p.name), ("fullName", Document.IsText p.fullName)]

theorem Project.exists_minimal (p : Project) : ∃ d, p.Minimal d := by
  refine Document.exists_holdsOnly (show ["name", "fullName"].Nodup by decide) ?_
  simp [Document.exists_isText]

theorem Project.Minimal.read {p : Project} {d : Document} (h : p.Minimal d) {frame inner : Frame}
    (entered : frame.enter = .ok inner) : Project.record.codec.read frame d.tree = .ok p := by
  have told : Project.record.fields.Told inner d 0 (p.name, p.fullName, ()) :=
    ⟨h.tells (.head _) (fun v => Codec.string_read_iff.2) 0,
      h.tells (.tail _ (.head _)) (fun v => Codec.string_read_iff.2) 1, trivial⟩
  exact Document.HoldsOnly.read h (by decide) entered told

namespace Recording

/-- The document of a build and those of the builds that triggered it, the nearest first. -/
inductive Documents : Document → List Document → Prop where
  | last {d : Document} (untriggered : ∀ v, d.field? "parent" 16 = some v → v = .null) :
    Documents d [d]
  | trigger {d v : Document} {ds : List Document} (held : d.field? "parent" 16 = some v)
    (present : v ≠ .null) (others : Documents v ds) : Documents d (d :: ds)

/-- Each field of the build is what the document tells of it, by the name of the field or, in an
array, by its place. -/
structure TellsIn (frame : Frame) (d : Document) (b : Build) : Prop where
  id : d.Tells frame (.required "id" .string) 0 b.id
  project : d.Tells frame (.required "project" Project.record.codec) 1 b.project
  displayName : d.Tells frame (.text "displayName") 2 b.displayName
  fullDisplayName : d.Tells frame (.text "fullDisplayName") 3 b.fullDisplayName
  description : d.Tells frame (.text "description") 4 b.description
  url : d.Tells frame (.text "url") 5 b.url
  number : d.Tells frame (.required "number" .int32) 6 b.number
  startTime : d.Tells frame (.required "startTime" .instant) 7 b.startTime
  timestamp : d.Tells frame (.defaulted "timestamp" Codec.instant.option none) 8 b.timestamp
  result : d.Tells frame (.defaulted "result" BuildResult.codec.option none) 9 b.result
  executor : d.Tells frame (.defaulted "executor" Executor.record.codec.option none) 10 b.executor
  actions : d.Tells frame (.defaulted "actions" Report.codec.list []) 11 b.actions
  environment :
    d.Tells frame (.defaulted "environment" Variables.codec.option none) 12 b.environment
  buildVariables : d.Tells frame (.defaulted "buildVariables" Variables.codec ∅) 13 b.buildVariables
  sensitiveBuildVariables :
    d.Tells frame (.defaulted "sensitiveBuildVariables" .nameSet ∅) 14 b.sensitiveBuildVariables
  environments :
    d.Tells frame (.defaulted "environments" Contributor.record.codec.option.list []) 15
      b.environments

def Tells (d : Document) (b : Build) : Prop := ∃ frame, TellsIn frame d b

/-- A build that has the names and the address of its document, or those made up for it. -/
structure NamedBy (d : Document) (b : Build) : Prop where
  others : ∃ told, Tells d told ∧ b = { told with
    displayName := b.displayName, fullDisplayName := b.fullDisplayName, url := b.url }
  displayName : ∃ name, b.displayName = some name ∧
    Document.Fills s!"#{b.number.toInt}" (d.field? "displayName" 2) name
  fullDisplayName : ∃ name fullName, b.displayName = some name ∧ b.fullDisplayName = some fullName ∧
    Document.Fills s!"{b.project.fullName} {name}" (d.field? "fullDisplayName" 3) fullName
  url : ∃ address, b.url = some address ∧
    Document.Fills s!"job/{b.project.fullName}/{b.number.toInt}/" (d.field? "url" 5) address

def Minimal (id : String) (project : Project) (number : Int32) (startTime : Instant) :
    Document → Prop :=
  Document.HoldsOnly [("id", Document.IsText id), ("project", project.Minimal),
    ("number", Document.IsInt number.toInt), ("startTime", Document.IsInstant startTime)]

theorem fills_of_tells {frame : Frame} {d : Document} {name : String} {place : Nat}
    {given : Option String} (h : d.Tells frame (.text name) place given) (default : String) :
    Document.Fills default (d.field? name place) (given.getD default) := by
  rcases h.option with ⟨rfl, untold⟩ | ⟨v, s, held, -, rfl, read⟩
  · cases held : d.field? name place with
    | none => exact .missing
    | some v =>
      rw [untold v held]
      exact .null
  · obtain ⟨l, rfl, spelled⟩ := Codec.string_read_iff.1 read
    rw [held]
    exact .text spelled

theorem NamedBy.of_tells {d : Document} {b : Build} (h : Tells d b) : NamedBy d b.withDefaults := by
  obtain ⟨frame, told⟩ := h
  exact {
    others := ⟨b, ⟨frame, told⟩, rfl⟩
    displayName := ⟨_, rfl, fills_of_tells told.displayName _⟩
    fullDisplayName := ⟨_, _, rfl, rfl, fills_of_tells told.fullDisplayName _⟩
    url := ⟨_, rfl, fills_of_tells told.url _⟩ }

theorem tellsIn_of_told {parent : Codec Recording} {frame : Frame} {d : Document}
    {parts : (record parent).Parts} (told : (record parent).fields.Told frame d 0 parts) :
    TellsIn frame d ((record parent).build parts).build := by
  obtain ⟨_, _, _, _, _, _, _, _, _, _, _, _, _, _, _, _, trigger, _⟩ := parts
  obtain ⟨id, project, displayName, fullDisplayName, description, url, number, startTime, timestamp,
    result, executor, actions, environment, buildVariables, sensitiveBuildVariables, environments,
    -⟩ := told
  -- The build is the same whether a trigger comes with it or not.
  cases trigger <;>
    exact {
      id, project, displayName, fullDisplayName, description, url, number, startTime, timestamp,
      result, executor, actions, environment, buildVariables, sensitiveBuildVariables,
      environments }

/-- The place of the trigger among the fields of a build. -/
def parentPlace (parent : Codec Recording) :
    Focus (.defaulted "parent" parent.option none) (record parent).fields :=
  .there <| .there <| .there <| .there <| .there <| .there <| .there <| .there <| .there <|
    .there <| .there <| .there <| .there <| .there <| .there <| .there .here

theorem triggers_build {parent : Codec Recording} (parts : (record parent).Parts) :
    ((record parent).build parts).triggers =
      match (parentPlace parent).get parts with
      | none => []
      | some trigger => trigger.build :: trigger.triggers := by
  obtain ⟨_, _, _, _, _, _, _, _, _, _, _, _, _, _, _, _, trigger, _⟩ := parts
  cases trigger <;> rfl

theorem tells_of_read {parent : Codec Recording} {frame : Frame} {d : Document} {r : Recording}
    (read : (record parent).codec.read frame d.tree = .ok r) :
    Tells d r.build ∧
      ((r.triggers = [] ∧ ∀ v, d.field? "parent" 16 = some v → v = .null) ∨
        ∃ v inner trigger, d.field? "parent" 16 = some v ∧ v ≠ .null ∧
          parent.read inner v.tree = .ok trigger ∧
          r.triggers = trigger.build :: trigger.triggers) := by
  have distinct : (record parent).fields.names.Nodup :=
    show (record codec).fields.names.Nodup by decide
  obtain ⟨inner, parts, -, rfl, told⟩ := Record.told_of_read distinct read
  refine ⟨⟨inner, tellsIn_of_told told⟩, ?_⟩
  have tells : d.Tells inner (.defaulted "parent" parent.option none) 16
      ((parentPlace parent).get parts) := told.tells (parentPlace parent)
  rw [triggers_build]
  rcases tells.option with ⟨none, untriggered⟩ | ⟨v, trigger, held, present, some, read⟩
  · rw [none]
    exact .inl ⟨rfl, untriggered⟩
  · rw [some]
    exact .inr ⟨v, inner, trigger, held, present, read, rfl⟩

/-- Along a whole chain each build is what its own document tells. -/
theorem exists_documents {n : Nat} {frame : Frame} {d : Document} {r : Recording}
    (read : (codecUpTo n).read frame d.tree = .ok r) :
    ∃ ds, Documents d ds ∧ List.Forall₂ Tells ds (r.build :: r.triggers) := by
  induction n generalizing frame d r with
  | zero =>
    obtain ⟨tells, ⟨none, untriggered⟩ | ⟨v, inner, trigger, -, -, readTrigger, -⟩⟩ :=
      tells_of_read read
    · rw [none]
      exact ⟨[d], .last untriggered, .cons tells .nil⟩
    · -- There is no room left, so no trigger can have been read.
      cases readTrigger
  | succ n ih =>
    obtain ⟨tells, ⟨none, untriggered⟩ | ⟨v, inner, trigger, held, present, readTrigger, some⟩⟩ :=
      tells_of_read read
    · rw [none]
      exact ⟨[d], .last untriggered, .cons tells .nil⟩
    · obtain ⟨ds, documents, others⟩ := ih readTrigger
      rw [some]
      exact ⟨d :: ds, .trigger held present documents, .cons tells others⟩

section
variable (id : String) (project : Project) (number : Int32) (startTime : Instant)

theorem exists_minimal : ∃ d, Minimal id project number startTime d := by
  have fits : FitsWord number.toInt := Codec.int32_lawful.fits number
  obtain ⟨start, spelled⟩ := Document.exists_isText (Rfc3339.write startTime)
  have begun : ∃ d : Document, d.IsInstant startTime :=
    ⟨start, _, spelled, Rfc3339.read_write startTime⟩
  refine Document.exists_holdsOnly
    (show ["id", "project", "number", "startTime"].Nodup by decide) ?_
  simp [Document.exists_isText, Project.exists_minimal, Document.exists_isInt fits, begun]

variable {id project number startTime}

theorem Minimal.told {d : Document} (h : Minimal id project number startTime d)
    {parent : Codec Recording} {inner deeper : Frame} (entered : inner.enter = .ok deeper) :
    (record parent).fields.Told inner d 0
      (id, project, none, none, none, none, number, startTime, none, none, none, [], none, ∅, ∅, [],
        none, ()) := by
  have lacking {α : Type} {field : RecordField α} {a : α} (absent : field.absent = some a)
      (other : field.name ∉ ["id", "project", "number", "startTime"]) (place : Nat) :
      d.Tells inner field place a := h.tells_absent other absent inner place
  refine ⟨?id, ?project, ?_, ?_, ?_, ?_, ?number, ?start, ?_, ?_, ?_, ?_, ?_, ?_, ?_, ?_, ?parent,
    trivial⟩
  case id => exact h.tells (.head _) (fun v => Codec.string_read_iff.2) 0
  case project =>
    exact h.tells (.tail _ (.head _)) (fun v minimal => minimal.read entered) 1
  case number =>
    exact h.tells (.tail _ (.tail _ (.head _))) (fun v => Codec.int32_read_of_isInt) 6
  case start =>
    exact h.tells (.tail _ (.tail _ (.tail _ (.head _))))
      (fun v => Codec.instant_read_of_isInstant) 7
  case parent =>
    exact lacking rfl (show "parent" ∉ ["id", "project", "number", "startTime"] by decide) 16
  all_goals exact lacking rfl (by decide) _

theorem ofJson_minimal {d : Document} (h : Minimal id project number startTime d) {s : String}
    (text : d.Text s) : ofJson s = .ok ⟨.new id project number startTime, []⟩ := by
  have distinct : (record (codecUpTo 126)).fields.names.Nodup := by decide
  have entered : Frame.top.enter = .ok ⟨126, false⟩ := rfl
  have read := h.read distinct entered (h.told rfl)
  rw [ofJson, codec.decode_text text]
  show ((record (codecUpTo 126)).codec.read .top d.tree).map withDefaults = _
  rw [read]
  rfl

end

/-- Each build of a chain that is read has a name, a full name and an address: those that its own
document gives, and else those made up of its number, its project and its name. All other fields are
what the document tells. A document that holds only what it must is read as a new build. -/
theorem ofJson_named :
    (∀ s r, ofJson s = .ok r → (∃ d : Document, d.Text s) ∧ ∀ d : Document, d.Text s →
      ∃ ds, Documents d ds ∧ List.Forall₂ NamedBy ds (r.build :: r.triggers)) ∧
    ∀ id project number startTime, (∃ d, Minimal id project number startTime d) ∧
      ∀ d s, Minimal id project number startTime d → d.Text s →
        ofJson s = .ok ⟨.new id project number startTime, []⟩ := by
  refine ⟨fun s r read => ?named, fun id project number startTime => ?minimal⟩
  case named =>
    obtain ⟨found, decoded, rfl⟩ := map_eq_ok_iff.1 read
    refine ⟨Codec.exists_text_of_decode decoded, fun d text => ?_⟩
    rw [codec.decode_text text] at decoded
    have read : (codecUpTo 127).read .top d.tree = .ok found := decoded
    obtain ⟨ds, documents, told⟩ := exists_documents read
    refine ⟨ds, documents, ?_⟩
    have named : List.Forall₂ NamedBy ds ((found.build :: found.triggers).map Build.withDefaults) :=
      List.forall₂_map_right_iff.2 (told.imp fun _ _ => NamedBy.of_tells)
    exact named
  case minimal =>
    exact ⟨exists_minimal id project number startTime, fun d s h text => ofJson_minimal h text⟩

def renamed : Recording :=
  { promoted with build := { promoted.build with displayName := some "again" } }

/-- The full name that is made up holds the name that is given. -/
theorem renamed_named :
    (∃ r d ds, ofJson renamed.toJson = .ok r ∧
      (r.build :: r.triggers).map (fun b => (b.displayName, b.fullDisplayName, b.url)) = [
        (some "again", some "ci/promote again", some "job/ci/promote/12/"),
        (some "#-7", some "ci/nightly #-7", some "job/ci/nightly/-7/")] ∧
      d.Text renamed.toJson ∧ Documents d ds ∧
      List.Forall₂ NamedBy ds (r.build :: r.triggers)) ∧
    ∃ d s, Minimal "12" ⟨"promote", "ci/promote"⟩ 12 promoted.build.startTime d ∧ d.Text s ∧
      ofJson s = .ok ⟨.new "12" ⟨"promote", "ci/promote"⟩ 12 promoted.build.startTime, []⟩ := by
  have shallow : (codec.write renamed).depth < 128 := by decide
  have read := (ofJson_toJson_withDefaults renamed shallow).1
  obtain ⟨⟨d, text⟩, named⟩ := ofJson_named.1 _ _ read
  obtain ⟨ds, documents, each⟩ := named d text
  obtain ⟨⟨minimal, holds⟩, made⟩ :=
    ofJson_named.2 "12" ⟨"promote", "ci/promote"⟩ 12 promoted.build.startTime
  have text' := Document.text_wire minimal
  exact ⟨⟨_, d, ds, read, by decide, text, documents, each⟩,
    minimal, _, holds, text', made minimal _ holds text'⟩

end Recording

end BuildCapture
