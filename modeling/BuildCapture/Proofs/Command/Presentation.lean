import BuildCapture.Proofs.Command.Arguments
import BuildCapture.Proofs.Command.Unprintable
import BuildCapture.Proofs.Config.RoundTrip
import BuildCapture.Proofs.Envelope.RoundTrip
set_option autoImplicit false

/-!
The options for the output. What is captured depends on the build, on the time and on whether the
build is delegated; the other options choose between two layouts and two documents for it
(`document_eq_some_iff`), and every text so chosen is read back as what it shows.
-/

namespace BuildCapture

open Json

def Config.envelope (c : Config) (s : Snapshot) (message : List String) (timestamp : String) :
    Envelope where
  data := s
  message := message
  source := c.source
  sourceHost := c.sourceHost
  timestamp := timestamp
  buildTimestamp := s.timestamp
  version := Envelope.currentVersion

namespace Command

theorem printJson_eq (pretty : Bool) (v : Value) :
    printJson pretty v = String.ofList (v.layout pretty ++ ['\n']) := by
  cases pretty <;> simp [printJson, Value.layout, Value.write, Value.writeIndented]

theorem blanks_newline : Blanks ['\n'] := by
  intro c hc
  obtain rfl := List.mem_singleton.1 hc
  decide

theorem ofJson_printed (s : Snapshot) (pretty : Bool) :
    Snapshot.ofJson (printJson pretty s.toValue) = .ok s := by
  rw [printJson_eq]
  exact s.ofJson_layout pretty blanks_newline

theorem ofJson_printedEnvelope (e : Envelope) (pretty : Bool) :
    Envelope.ofJson (printJson pretty e.toValue) = .ok e := by
  rw [printJson_eq]
  exact e.ofJson_layout pretty blanks_newline

def SnapshotOptions.mode (o : SnapshotOptions) : Mode := if o.delegated then .delegated else .direct

def SnapshotOptions.shown (o : SnapshotOptions) (c : Config) (s : Snapshot) (stamp : String) :
    Value :=
  if o.payload then (c.envelope s o.message stamp).toValue else s.toValue

theorem exists_write_of_capture {mode : Mode} {r : Recording} {now : Instant} {format : DateFormat}
    {captured : Snapshot × List Event} (h : Snapshot.capture mode r now format = some captured) :
    ∃ stamp, format.write now = some stamp := by
  rw [← Option.ne_none_iff_exists', ne_eq, format.write_eq_none_iff now,
    ← Snapshot.capture_eq_none_iff mode r now format, h]
  nofun

theorem document_eq_some_iff {c : Config} {format : DateFormat} {r : Recording} {now : Instant}
    {o : SnapshotOptions} {v : Value} :
    document c format r now o = some v ↔
      ∃ s events stamp, Snapshot.capture o.mode r now format = some (s, events) ∧
        format.write now = some stamp ∧ v = o.shown c s stamp := by
  rw [document, ← SnapshotOptions.mode]
  cases captured : Snapshot.capture o.mode r now format with
  | none => simp
  | some found =>
    obtain ⟨s, events⟩ := found
    obtain ⟨stamp, written⟩ := exists_write_of_capture captured
    simp only [SnapshotOptions.shown]
    cases o.payload with
    | false => simp [written, eq_comm (a := v)]
    | true => simp [Envelope.new, Config.envelope, written, eq_comm (a := v)]

/-- Options under which a build is captured in the same way. -/
structure SnapshotOptions.SameCapture (o o' : SnapshotOptions) : Prop where
  build : o'.build = o.build
  delegated : o'.delegated = o.delegated
  now : o'.now = o.now

theorem run_snapshot_eq_printed_iff {files : Files} {clock : Instant} {words : List String}
    {config : Option String} {o : SnapshotOptions} {text : String}
    (read : Arguments.read words = .ok ⟨config, .snapshot o⟩) :
    run files clock words = .printed text ↔
      ∃ c format r s events stamp, loadConfig files config = .ok c ∧ dateFormat c = .ok format ∧
        loadBuild files o.build = .ok r ∧
        Snapshot.capture o.mode r (o.now.getD clock) format = some (s, events) ∧
        format.write (o.now.getD clock) = some stamp ∧
        text = printJson o.pretty (o.shown c s stamp) := by
  refine (run_eq_iff (some text)).trans ?_
  simp only [read, Except.ok.injEq, exists_eq_left', perform_eq_ok_iff]
  simp only [eq_comm (a := some text), Option.map_eq_some_iff, document_eq_some_iff]
  constructor
  · rintro ⟨c, format, loaded, checked, r, built, v, ⟨s, events, stamp, captured, written, rfl⟩,
      rfl⟩
    exact ⟨c, format, r, s, events, stamp, loaded, checked, built, captured, written, rfl⟩
  · rintro ⟨c, format, r, s, events, stamp, loaded, checked, built, captured, written, rfl⟩
    exact ⟨c, format, loaded, checked, r, built, _,
      ⟨s, events, stamp, captured, written, rfl⟩, rfl⟩

/-- The options for the output change the presentation only: whatever they are, what a run prints
is read back as the snapshot that is printed without them, or as its envelope. -/
theorem presented_alike {files : Files} {clock now : Instant} {words : List String}
    {config : Option String} {o : SnapshotOptions} {text : String}
    (read : Arguments.read words = .ok ⟨config, .snapshot o⟩) (bare : o.payload = false)
    (compact : o.pretty = false) (timed : o.now = some now)
    (printed : run files clock words = .printed text) :
    ∃ c format s stamp, loadConfig files config = .ok c ∧ dateFormat c = .ok format ∧
      format.write now = some stamp ∧ text = s.toJson ++ "\n" ∧
      (∀ pretty, Snapshot.ofJson (printJson pretty s.toValue) = .ok s) ∧
      (∀ message pretty, Envelope.ofJson (printJson pretty (c.envelope s message stamp).toValue) =
        .ok (c.envelope s message stamp)) ∧
      (∀ message, ∃ rest, printJson false (c.envelope s message stamp).toValue =
        "\x7b\"data\":" ++ s.toJson ++ "," ++ rest) ∧
      ∀ o', o.SameCapture o' →
        (∃ words', Arguments.read words' = .ok ⟨config, .snapshot o'⟩) ∧
        ∀ words' clock', Arguments.read words' = .ok ⟨config, .snapshot o'⟩ →
          (∃ given, SnapshotWords config given words' ∧ o'.message = values given "message") ∧
          run files clock' words' = .printed (printJson o'.pretty
            (if o'.payload then (c.envelope s o'.message stamp).toValue else s.toValue)) := by
  obtain ⟨c, format, r, s, events, stamp, loaded, checked, built, captured, written, rfl⟩ :=
    (run_snapshot_eq_printed_iff read).1 printed
  rw [timed, Option.getD_some] at captured written
  refine ⟨c, format, s, stamp, loaded, checked, written, ?alone, ofJson_printed s,
    fun message => ofJson_printedEnvelope _, fun message => ?front, fun o' same => ⟨?words, ?run⟩⟩
  case alone =>
    rw [SnapshotOptions.shown, bare, compact]
    rfl
  case front =>
    obtain ⟨rest, front⟩ := (c.envelope s message stamp).exists_write_eq
    refine ⟨rest ++ "\n", ?_⟩
    show (c.envelope s message stamp).toValue.write ++ "\n" = _
    rw [front, String.append_assoc]
    rfl
  case words =>
    obtain ⟨file, named⟩ := Arguments.named_of_read read
    exact Arguments.exists_words file o' (same.build ▸ named)
  case run =>
    intro words' clock' read'
    have time : o'.now.getD clock' = now := by rw [same.now, timed, Option.getD_some]
    refine ⟨?_, (run_snapshot_eq_printed_iff read').2 ⟨c, format, r, s, events, stamp, loaded,
      checked, same.build ▸ built, ?_, time ▸ written, rfl⟩⟩
    · obtain ⟨given, build, spelled, -, rfl⟩ := Arguments.read_snapshot_iff.1 read'
      exact ⟨given, spelled, rfl⟩
    · rw [time, SnapshotOptions.mode, same.delegated]
      exact captured

def nightlyValue : Value :=
  .object [("id", .string "7"),
    ("project", .object [("name", .string "nightly"), ("fullName", .string "ci/nightly")]),
    ("number", .int 7), ("startTime", .string "2016-12-31T22:30:00Z")]

def nightly : Recording where
  build := Build.withDefaults {
    id := "7"
    project := ⟨"nightly", "ci/nightly"⟩
    number := 7
    startTime := ⟨1483223400, 0, by decide, by decide, by decide⟩ }
  triggers := []

def nightlyFiles : Files := fun path =>
  if path = "nightly.json" then .ok nightlyValue.write else .error .missing

def nightlyOptions : SnapshotOptions where
  build := "nightly.json"
  now := some noon

theorem loadBuild_nightly : loadBuild nightlyFiles "nightly.json" = .ok nightly := by
  have fits : nightlyValue.Fits := by simp [nightlyValue, Value.Fits, Value.MembersFit, FitsWord]
  have read : Recording.ofJson nightlyValue.write = .ok nightly := by
    rw [Recording.ofJson, Value.write, Codec.decode_spelled _ (Value.spelled_wire _) fits]
    rfl
  exact bind_eq_ok_iff.2 ⟨_, mapError_eq_ok_iff.2 rfl, mapError_eq_ok_iff.2 read⟩

theorem read_nightly :
    Arguments.read ["snapshot", "--build=nightly.json", "--now=1970-01-01T12:00:00Z"] =
        .ok ⟨none, .snapshot nightlyOptions⟩ ∧
      Arguments.read ["snapshot", "-bnightly.json", "--payload", "-mdone", "--pretty", "--now",
          "1970-01-01T12:00:00Z"] =
        .ok ⟨none, .snapshot { nightlyOptions with
          payload := true, message := ["done"], pretty := true }⟩ := by
  have time : readTime? "1970-01-01T12:00:00Z" = some noon := rfl
  constructor <;>
    simp [Arguments.read, readOptions, classify, splitValue, tailValue, isPlain, rootSpecs,
      snapshotSpecs, fileSpec, addOption, values, readSnapshot, readAll, value?, bind, Except.bind,
      pure, Except.pure, time, nightlyOptions]

/-- The snapshot of the build, printed alone and then in an indented envelope. -/
theorem nightly_presented_alike :
    ∃ (c : Config) (s : Snapshot) (stamp : String),
      run nightlyFiles noon ["snapshot", "--build=nightly.json", "--now=1970-01-01T12:00:00Z"] =
        .printed (s.toJson ++ "\n") ∧
      run nightlyFiles noon ["snapshot", "-bnightly.json", "--payload", "-mdone", "--pretty",
          "--now", "1970-01-01T12:00:00Z"] =
        .printed (printJson true (c.envelope s ["done"] stamp).toValue) ∧
      Envelope.ofJson (printJson true (c.envelope s ["done"] stamp).toValue) =
        .ok (c.envelope s ["done"] stamp) := by
  obtain ⟨read, readEnvelope⟩ := read_nightly
  obtain ⟨stamp, written⟩ : ∃ stamp, (default : DateFormat).write noon = some stamp := ⟨_, rfl⟩
  obtain ⟨⟨s, events⟩, captured⟩ :
      ∃ found, Snapshot.capture .direct nightly noon default = some found := ⟨_, rfl⟩
  have printed : run nightlyFiles noon _ = .printed _ := (run_snapshot_eq_printed_iff read).2
    ⟨default, default, nightly, s, events, stamp, rfl, rfl, loadBuild_nightly, captured, written,
      rfl⟩
  obtain ⟨c, _, s, stamp, -, -, -, text, -, enveloped, -, others⟩ :=
    presented_alike read rfl rfl rfl printed
  have enveloping := (others _ (⟨rfl, rfl, rfl⟩ : nightlyOptions.SameCapture
    { nightlyOptions with payload := true, message := ["done"], pretty := true })).2 _ noon
    readEnvelope
  exact ⟨c, s, stamp, text ▸ printed, enveloping.2, enveloped ["done"] true⟩

end Command

end BuildCapture
