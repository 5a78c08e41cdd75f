import BuildCapture.Proofs.Build.RoundTrip
import BuildCapture.Proofs.Json.Fields
import BuildCapture.Proofs.Snapshot.Rearranged
import BuildCapture.Proofs.Time.DefaultFormat
set_option autoImplicit false

namespace BuildCapture

open Json

namespace Recording

def startingAt (t : Instant) (r : Recording) : Recording :=
  { r with build := { r.build with startTime := t } }

def scheduledAt (t : Instant) (r : Recording) : Recording :=
  { r with build := { r.build with timestamp := some t } }

def startPlace (parent : Codec Recording) :
    Focus (.required "startTime" .instant) (record parent).fields :=
  .there <| .there <| .there <| .there <| .there <| .there <| .there .here

def schedulePlace (parent : Codec Recording) :
    Focus (.defaulted "timestamp" Codec.instant.option none) (record parent).fields :=
  .there <| .there <| .there <| .there <| .there <| .there <| .there <| .there .here

theorem build_set_startPlace {parent : Codec Recording} (parts : (record parent).Parts)
    (t : Instant) :
    (record parent).build ((startPlace parent).set t parts) =
      ((record parent).build parts).startingAt t := by
  obtain ⟨_, _, _, _, _, _, _, _, _, _, _, _, _, _, _, _, trigger, _⟩ := parts
  cases trigger <;> rfl

theorem build_set_schedulePlace {parent : Codec Recording} (parts : (record parent).Parts)
    (t : Instant) :
    (record parent).build ((schedulePlace parent).set (some t) parts) =
      ((record parent).build parts).scheduledAt t := by
  obtain ⟨_, _, _, _, _, _, _, _, _, _, _, _, _, _, _, _, trigger, _⟩ := parts
  cases trigger <;> rfl

/-- With another value of a field in its document, a build is read as itself but for that field,
provided that defaults do not depend on the field. -/
theorem ofJson_exchanged {α : Type} {field : RecordField α}
    (place : ∀ parent, Focus field (record parent).fields) {a : α} {set : Recording → Recording}
    (build_set : ∀ {parent} (parts : (record parent).Parts),
      (record parent).build ((place parent).set a parts) = set ((record parent).build parts))
    (filled : ∀ r : Recording, (set r).withDefaults = set r.withDefaults)
    {v v' d d' : Document} {s s' : String} (text : d.Text s) (text' : d'.Text s')
    (h : Document.Exchanged field.name (place (codecUpTo 126)).index v v' d d')
    (reads : ∀ frame, field.codec.read frame v'.tree = .ok a) {r : Recording}
    (read : ofJson s = .ok r) : ofJson s' = .ok (set r) := by
  have distinct : (record (codecUpTo 126)).fields.names.Nodup := by decide
  rw [ofJson, codec.decode_text text] at read
  obtain ⟨found, readTree, rfl⟩ := map_eq_ok_iff.1 read
  have readTree : (record (codecUpTo 126)).codec.read .top d.tree = .ok found := readTree
  obtain ⟨inner, parts, -, rfl, -, again⟩ :=
    Record.codec_read_set distinct (h.differ (place (codecUpTo 126))) readTree
  have readAgain : codec.read .top d'.tree = .ok (set ((record (codecUpTo 126)).build parts)) := by
    rw [← build_set]
    exact again a (reads inner)
  rw [ofJson, codec.decode_text text', readAgain]
  exact congrArg Except.ok (filled _)

section
variable {v d d' : Document} {s s' : String} (text : d.Text s) (text' : d'.Text s')
  {literal : Literal} {written : String} (spelled : literal.read = .ok written) {t : Instant}
  (reads : Rfc3339.read written = .ok t) {r : Recording} (read : ofJson s = .ok r)
include text text' spelled reads read

theorem ofJson_startingAt (h : Document.Exchanged "startTime" 7 v (.string literal) d d') :
    ofJson s' = .ok (r.startingAt t) :=
  ofJson_exchanged startPlace (build_set_startPlace · t) (fun _ => rfl) text text' h
    (Codec.instant_read_literal spelled reads) read

theorem ofJson_scheduledAt (h : Document.Exchanged "timestamp" 8 v (.string literal) d d') :
    ofJson s' = .ok (r.scheduledAt t) := by
  refine ofJson_exchanged schedulePlace (build_set_schedulePlace · t) (fun _ => rfl) text text' h
    (fun frame => ?_) read
  have some : Codec.instant.option.read frame (Document.tree (.string literal)) =
      (Codec.instant.read frame (Document.tree (.string literal))).map Option.some := rfl
  show Codec.instant.option.read frame (Document.tree (.string literal)) = _
  rw [some, Codec.instant_read_literal spelled reads]
  rfl

end

end Recording

namespace Snapshot

theorem captureAt_timestamp (mode : Mode) (r : Recording) (now : Instant) (timestamp : String) :
    (captureAt mode r now timestamp).1.timestamp = timestamp := by
  cases mode <;> rfl

/-- In the default format a build is always captured, and the timestamp is that of its schedule cut
to milliseconds, even in a leap second. Wherever a recording is read that holds any value as its
start, or as its schedule, it is read with this timestamp in that place too. -/
theorem timestamp_read_back (mode : Mode) (r : Recording) (now : Instant) :
    ∃ s events, capture mode r now default = some (s, events) ∧
      Rfc3339.read s.timestamp = .ok r.build.scheduled.wholeMillis ∧
      r.build.scheduled.wholeMillis.isLeapSecond = r.build.scheduled.isLeapSecond ∧
      ∀ (d d' v : Document) (literal : Literal) (text text' : String) (other : Recording),
        d.Text text → Recording.ofJson text = .ok other →
        d'.Text text' → literal.read = .ok s.timestamp →
        (Document.Exchanged "startTime" 7 v (.string literal) d d' →
          Recording.ofJson text' = .ok (other.startingAt r.build.scheduled.wholeMillis)) ∧
        (Document.Exchanged "timestamp" 8 v (.string literal) d d' →
          Recording.ofJson text' = .ok (other.scheduledAt r.build.scheduled.wholeMillis)) := by
  have captured : capture mode r now default =
      some (captureAt mode r now (String.ofList (Rfc3339.stamp r.build.scheduled))) := by
    rw [capture, DateFormat.write_default]
    rfl
  have reads : Rfc3339.read (captureAt mode r now
      (String.ofList (Rfc3339.stamp r.build.scheduled))).1.timestamp =
        .ok r.build.scheduled.wholeMillis := by
    rw [captureAt_timestamp, Rfc3339.read_stamp]
  refine ⟨_, _, captured, reads, Instant.isLeapSecond_wholeMillis _, ?_⟩
  intro d d' v literal text text' other spelled read spelled' stamp
  exact ⟨Recording.ofJson_startingAt spelled spelled' stamp reads read,
    Recording.ofJson_scheduledAt spelled spelled' stamp reads read⟩

def sparse : Recording where
  build := Build.new "7" ⟨"nightly", "ci/nightly"⟩ 7 measured.build.startTime
  triggers := []

def sparseDocument (start : Literal) : Document :=
  .object (measuredFields.modify 3 fun field => (field.1, .string start))

/-- A build that starts in a leap second, and a recording that holds its timestamp as the start. -/
theorem promoted_timestamp_read_back :
    ∃ s events literal, capture .direct Recording.promoted sparse.build.startTime default =
        some (s, events) ∧
      literal.read = .ok s.timestamp ∧
      Recording.ofJson (String.ofList (Document.object measuredFields).wire) = .ok sparse ∧
      Recording.ofJson (String.ofList (sparseDocument literal).wire) =
        .ok (sparse.startingAt Recording.promoted.build.startTime) := by
  have read : Recording.ofJson (String.ofList (Document.object measuredFields).wire) =
      .ok sparse := by
    rw [Recording.ofJson, Codec.decode_text _ (Document.text_wire _)]
    rfl
  obtain ⟨s, events, captured, -, -, accepted⟩ :=
    timestamp_read_back .direct Recording.promoted sparse.build.startTime
  obtain ⟨literal, -, spelled⟩ := exists_literal s.timestamp
  have exchanged : Document.Exchanged "startTime" 7 (.string (.bare "2016-12-31T23:59:00Z"))
      (.string literal) (.object measuredFields) (sparseDocument literal) :=
    @Document.Exchanged.object _ _ _ _ (measuredFields.take 3) [] (.bare "startTime") rfl
  have again := (accepted _ _ _ literal _ _ _ (Document.text_wire _) read (Document.text_wire _)
    spelled).1 exchanged
  exact ⟨s, events, literal, captured, spelled, read, again⟩

end Snapshot

end BuildCapture
