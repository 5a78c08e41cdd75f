import BuildCapture.Proofs.Command.Presentation
set_option autoImplicit false

/-!
Which runs fail, and why. The first fault on the way counts, and the configuration comes before the
build (`perform_eq_error_iff`); what a run puts out it puts out at its end, so that one which does
not succeed puts out nothing.
-/

namespace BuildCapture.Command

theorem fileText_eq_ok_iff {bytes : ByteArray} {text : String} :
    fileText (some bytes) = .ok text ↔ String.fromUTF8? bytes = some text := by
  rw [fileText]
  cases String.fromUTF8? bytes <;> simp

theorem fileText_eq_error_iff {bytes : ByteArray} {e : FileError} :
    fileText (some bytes) = .error e ↔ String.fromUTF8? bytes = none ∧ e = .notText := by
  rw [fileText]
  cases String.fromUTF8? bytes <;> simp [eq_comm]

section
variable {ε α : Type} (parse : String → Except ε α)

/-- The content of a file that is there, is text and is accepted as such. -/
inductive FileAccepted : Option ByteArray → α → Prop where
  | intro {bytes : ByteArray} {text : String} {a : α} (isText : String.fromUTF8? bytes = some text)
    (accepted : parse text = .ok a) : FileAccepted (some bytes) a

/-- Why a file is not accepted: it is not there, it is no text, or its text is refused. -/
inductive FileRefused (unread : FileError → Failure) (refuse : ε → Failure) :
    Option ByteArray → Failure → Prop where
  | missing : FileRefused unread refuse none (unread .missing)
  | notText {bytes : ByteArray} (noText : String.fromUTF8? bytes = none) :
    FileRefused unread refuse (some bytes) (unread .notText)
  | refused {bytes : ByteArray} {text : String} {e : ε}
    (isText : String.fromUTF8? bytes = some text) (refused : parse text = .error e) :
    FileRefused unread refuse (some bytes) (refuse e)

def loadFile (unread : FileError → Failure) (refuse : ε → Failure)
    (file : Except FileError String) : Except Failure α := do
  let text ← file.mapError unread
  (parse text).mapError refuse

variable {parse} {unread : FileError → Failure} {refuse : ε → Failure} {content : Option ByteArray}

theorem loadFile_eq_ok_iff {a : α} :
    loadFile parse unread refuse (fileText content) = .ok a ↔ FileAccepted parse content a := by
  simp only [loadFile, bind_eq_ok_iff, mapError_eq_ok_iff]
  constructor
  · rintro ⟨text, found, accepted⟩
    cases content with
    | none => cases found
    | some bytes => exact .intro (fileText_eq_ok_iff.1 found) accepted
  · rintro ⟨isText, accepted⟩
    exact ⟨_, fileText_eq_ok_iff.2 isText, accepted⟩

theorem loadFile_eq_error_iff {failure : Failure} :
    loadFile parse unread refuse (fileText content) = .error failure ↔
      FileRefused parse unread refuse content failure := by
  simp only [loadFile, bind_eq_error_iff, mapError_eq_ok_iff, mapError_eq_error_iff]
  constructor
  · rintro (⟨e, unreadable, rfl⟩ | ⟨text, found, e, refused, rfl⟩)
    · cases content with
      | none =>
        cases unreadable
        exact .missing
      | some bytes =>
        obtain ⟨noText, rfl⟩ := fileText_eq_error_iff.1 unreadable
        exact .notText noText
    · cases content with
      | none => cases found
      | some bytes => exact .refused (fileText_eq_ok_iff.1 found) refused
  · rintro (- | noText | ⟨isText, refused⟩)
    · exact .inl ⟨_, rfl, rfl⟩
    · exact .inl ⟨_, fileText_eq_error_iff.2 ⟨noText, rfl⟩, rfl⟩
    · exact .inr ⟨_, fileText_eq_ok_iff.2 isText, _, refused, rfl⟩

theorem FileRefused.eq_or_eq {failure : Failure}
    (h : FileRefused parse unread refuse content failure) :
    (∃ e, failure = unread e) ∨ ∃ e, failure = refuse e := by
  cases h with
  | missing => exact .inl ⟨_, rfl⟩
  | notText noText => exact .inl ⟨_, rfl⟩
  | refused isText refused => exact .inr ⟨_, rfl⟩

end

abbrev Contents := String → Option ByteArray

def filesOf (contents : Contents) : Files := fun path => fileText (contents path)

variable {contents : Contents}

inductive ConfigAccepted (contents : Contents) : Option String → Config → Prop where
  | absent : ConfigAccepted contents none default
  | file {path : String} {c : Config} (accepted : FileAccepted Config.ofToml (contents path) c) :
    ConfigAccepted contents (some path) c

/-- Why a configuration is refused. -/
inductive ConfigRefused (contents : Contents) : Option String → Failure → Prop where
  | file {path : String} {failure : Failure}
    (refused : FileRefused Config.ofToml .configFile .config (contents path) failure) :
    ConfigRefused contents (some path) failure
  | dateFormat {config : Option String} {c : Config} {e : InvalidPattern}
    (accepted : ConfigAccepted contents config c)
    (refused : DateFormat.ofPattern c.dateFormat = .error e) :
    ConfigRefused contents config (.dateFormat e)

def BuildAccepted (contents : Contents) (path : String) (r : Recording) : Prop :=
  FileAccepted Recording.ofJson (contents path) r

def BuildRefused (contents : Contents) (path : String) (failure : Failure) : Prop :=
  FileRefused Recording.ofJson .buildFile .build (contents path) failure

def Failure.ofConfig : Failure → Bool
  | .configFile _ | .config _ | .dateFormat _ => true
  | .buildFile _ | .build _ => false

theorem loadConfig_eq_ok_iff {config : Option String} {c : Config} :
    loadConfig (filesOf contents) config = .ok c ↔ ConfigAccepted contents config c := by
  cases config with
  | none =>
    constructor
    · rintro ⟨⟩
      exact .absent
    · rintro ⟨⟩
      rfl
  | some path =>
    have file : loadConfig (filesOf contents) (some path) = .ok c ↔
        FileAccepted Config.ofToml (contents path) c := loadFile_eq_ok_iff
    rw [file]
    exact ⟨.file, fun (.file accepted) => accepted⟩

theorem dateFormat_eq_ok_iff {c : Config} {format : DateFormat} :
    dateFormat c = .ok format ↔ DateFormat.ofPattern c.dateFormat = .ok format :=
  mapError_eq_ok_iff

theorem dateFormat_eq_error_iff {c : Config} {failure : Failure} :
    dateFormat c = .error failure ↔
      ∃ e, DateFormat.ofPattern c.dateFormat = .error e ∧ .dateFormat e = failure :=
  mapError_eq_error_iff

theorem configRefused_iff {config : Option String} {failure : Failure} :
    ConfigRefused contents config failure ↔
      loadConfig (filesOf contents) config = .error failure ∨
      ∃ c, loadConfig (filesOf contents) config = .ok c ∧ dateFormat c = .error failure := by
  constructor
  · rintro (refused | ⟨accepted, refused⟩)
    · exact .inl (loadFile_eq_error_iff.2 refused)
    · exact .inr ⟨_, loadConfig_eq_ok_iff.2 accepted, dateFormat_eq_error_iff.2 ⟨_, refused, rfl⟩⟩
  · rintro (failed | ⟨c, loaded, failed⟩)
    · cases config with
      | none => cases failed
      | some path => exact .file (loadFile_eq_error_iff.1 failed)
    · obtain ⟨e, refused, rfl⟩ := dateFormat_eq_error_iff.1 failed
      exact .dateFormat (loadConfig_eq_ok_iff.1 loaded) refused

theorem ConfigRefused.ofConfig {config : Option String} {failure : Failure}
    (h : ConfigRefused contents config failure) : failure.ofConfig = true := by
  rcases h with refused | _
  · rcases refused.eq_or_eq with ⟨e, rfl⟩ | ⟨e, rfl⟩ <;> rfl
  · rfl

theorem default_not_refused (failure : Failure) : ¬ ConfigRefused contents none failure := by
  intro h
  cases h with
  | dateFormat accepted refused =>
    cases accepted
    cases refused

theorem BuildRefused.ofConfig {path : String} {failure : Failure}
    (h : BuildRefused contents path failure) : failure.ofConfig = false := by
  rcases FileRefused.eq_or_eq h with ⟨e, rfl⟩ | ⟨e, rfl⟩ <;> rfl

theorem loadBuild_eq_ok_iff {path : String} {r : Recording} :
    loadBuild (filesOf contents) path = .ok r ↔ BuildAccepted contents path r :=
  loadFile_eq_ok_iff

theorem loadBuild_eq_error_iff {path : String} {failure : Failure} :
    loadBuild (filesOf contents) path = .error failure ↔ BuildRefused contents path failure :=
  loadFile_eq_error_iff

/-- The first fault counts: that of the configuration, of its date format, or of the build. -/
theorem perform_eq_error_iff {files : Files} {clock : Instant} {a : Arguments}
    {failure : Failure} :
    perform files clock a = .error failure ↔
      loadConfig files a.config = .error failure ∨
      ∃ c, loadConfig files a.config = .ok c ∧ (dateFormat c = .error failure ∨
        ∃ format o, dateFormat c = .ok format ∧ a.action = .snapshot o ∧
          loadBuild files o.build = .error failure) := by
  obtain ⟨config, parse | o⟩ := a
  · simp [perform, bind_eq_error_iff, pure, Except.pure]
  · simp [perform, bind_eq_error_iff, pure, Except.pure]

theorem run_eq_failed_iff {files : Files} {clock : Instant} {words : List String}
    {a : Arguments} (read : Arguments.read words = .ok a) {failure : Failure} :
    run files clock words = .failed failure ↔ perform files clock a = .error failure := by
  simp only [run, read]
  cases performed : perform files clock a with
  | error failure' => simp
  | ok found => cases found <;> simp

theorem run_eq_failed_iff_refused {words : List String} {a : Arguments}
    (read : Arguments.read words = .ok a) (clock : Instant) {failure : Failure} :
    run (filesOf contents) clock words = .failed failure ↔
      ConfigRefused contents a.config failure ∨
      ∃ c format o, ConfigAccepted contents a.config c ∧
        DateFormat.ofPattern c.dateFormat = .ok format ∧ a.action = .snapshot o ∧
        BuildRefused contents o.build failure := by
  rw [run_eq_failed_iff read, perform_eq_error_iff, configRefused_iff]
  simp only [loadConfig_eq_ok_iff, dateFormat_eq_ok_iff, loadBuild_eq_error_iff, and_or_left,
    exists_or, or_assoc, exists_and_left]

theorem code_eq_zero_iff {files : Files} {clock : Instant} {words : List String}
    {a : Arguments} (read : Arguments.read words = .ok a) :
    (run files clock words).code = 0 ↔ ∃ text, run files clock words = .printed text := by
  simp only [run, read]
  cases performed : perform files clock a with
  | error failure => simp [Outcome.code]
  | ok found => cases found <;> simp [Outcome.code]

theorem run_eq_of_accepted {files : Files} {words : List String} {config : Option String}
    {o : SnapshotOptions} (read : Arguments.read words = .ok ⟨config, .snapshot o⟩) {c : Config}
    {format : DateFormat} {r : Recording} (loaded : loadConfig files config = .ok c)
    (checked : dateFormat c = .ok format) (built : loadBuild files o.build = .ok r)
    (clock : Instant) :
    run files clock words =
      ((document c format r (o.now.getD clock) o).map (printJson o.pretty)).elim
        .unprintable .printed :=
  (run_eq_iff _).2 ⟨_, read, perform_eq_ok_iff.2 ⟨c, format, loaded, checked, r, built, rfl⟩⟩

theorem run_unprintable_iff {files : Files} {words : List String} {config : Option String}
    {o : SnapshotOptions} (read : Arguments.read words = .ok ⟨config, .snapshot o⟩) {c : Config}
    {format : DateFormat} {r : Recording} (loaded : loadConfig files config = .ok c)
    (checked : dateFormat c = .ok format) (built : loadBuild files o.build = .ok r)
    (clock : Instant) :
    (run files clock words = .unprintable ↔ Pattern.IsLoose c.dateFormat) ∧
      ((run files clock words).code = 0 ↔ ¬ Pattern.IsLoose c.dateFormat) := by
  rw [run_eq_of_accepted read loaded checked built, ← pattern_of_dateFormat checked,
    ← document_eq_none_iff c format r (o.now.getD clock) o]
  cases document c format r (o.now.getD clock) o <;> simp [Outcome.code]

theorem Outcome.stdout_of_code_ne_zero {outcome : Outcome} (h : outcome.code ≠ 0) :
    outcome.stdout = "" := by
  cases outcome with
  | printed text => exact absurd rfl h
  | failed failure => rfl
  | unprintable => rfl
  | refused refusal =>
    cases refusal with
    | help topic => exact absurd rfl h
    | usage => rfl

theorem exists_accepted {config : Option String}
    (h : ∀ failure, ¬ ConfigRefused contents config failure) :
    ∃ c format, ConfigAccepted contents config c ∧
      DateFormat.ofPattern c.dateFormat = .ok format := by
  simp only [configRefused_iff, not_or, not_exists, not_and] at h
  cases loaded : loadConfig (filesOf contents) config with
  | error failure => exact absurd loaded (h failure).1
  | ok c =>
    cases checked : dateFormat c with
    | error failure => exact absurd checked ((h failure).2 c loaded)
    | ok format => exact ⟨c, format, loadConfig_eq_ok_iff.1 loaded, dateFormat_eq_ok_iff.1 checked⟩

theorem ofJson_shown (c : Config) (s : Snapshot) (stamp : String) (o : SnapshotOptions) :
    let text := printJson o.pretty (o.shown c s stamp)
    if o.payload then Envelope.ofJson text = .ok (c.envelope s o.message stamp)
    else Snapshot.ofJson text = .ok s := by
  dsimp only
  rw [SnapshotOptions.shown]
  split
  case isTrue => exact ofJson_printedEnvelope _ _
  case isFalse => exact ofJson_printed s _

/-- A run fails for the first thing that is wrong: with an error of the configuration exactly if
that is refused, whatever else there is, and else with an error of the build exactly if that is.
What is accepted is printed, unless the date format has no printed form. A run puts out nothing
unless it succeeds, and if it does a text that is read back as what has been asked for. -/
theorem run_all_or_nothing {words : List String} {a : Arguments}
    (read : Arguments.read words = .ok a) (contents : Contents) (clock : Instant) :
    let outcome := run (filesOf contents) clock words
    (∀ failure, failure.ofConfig = true →
      (outcome = .failed failure ↔ ConfigRefused contents a.config failure)) ∧
    ((∀ failure, ¬ ConfigRefused contents a.config failure) →
      match a.action with
      | .parse => outcome.code = 0
      | .snapshot o =>
        (∀ failure, failure.ofConfig = false →
          (outcome = .failed failure ↔ BuildRefused contents o.build failure)) ∧
        ∀ c r, ConfigAccepted contents a.config c → BuildAccepted contents o.build r →
          (outcome = .unprintable ↔ Pattern.IsLoose c.dateFormat) ∧
            (outcome.code = 0 ↔ ¬ Pattern.IsLoose c.dateFormat)) ∧
    (outcome.code ≠ 0 → outcome.stdout = "") ∧
    (outcome.code = 0 → ∃ c, ConfigAccepted contents a.config c ∧
      match a.action with
      | .parse => outcome.stdout = c.toToml ∧ Config.ofToml outcome.stdout = .ok c
      | .snapshot o => ∃ format r s events stamp,
        DateFormat.ofPattern c.dateFormat = .ok format ∧ BuildAccepted contents o.build r ∧
        Snapshot.capture o.mode r (o.now.getD clock) format = some (s, events) ∧
        format.write (o.now.getD clock) = some stamp ∧
        outcome.stdout = printJson o.pretty (o.shown c s stamp) ∧
        if o.payload then Envelope.ofJson outcome.stdout = .ok (c.envelope s o.message stamp)
        else Snapshot.ofJson outcome.stdout = .ok s) := by
  dsimp only
  refine ⟨fun failure ofConfig => ?config, fun accepted => ?accepted,
    Outcome.stdout_of_code_ne_zero, fun succeeded => ?succeeded⟩
  case config =>
    -- An error of the build is none of the configuration.
    rw [run_eq_failed_iff_refused read]
    refine or_iff_left ?_
    rintro ⟨c, format, o, -, -, -, refused⟩
    exact absurd (refused.ofConfig.symm.trans ofConfig) (by decide)
  case accepted =>
    obtain ⟨c, format, loaded, checked⟩ := exists_accepted accepted
    obtain ⟨config, parse | o⟩ := a
    · exact (code_eq_zero_iff read).2 ⟨_, (run_parse_eq_printed_iff read).2
        ⟨c, format, loadConfig_eq_ok_iff.2 loaded, dateFormat_eq_ok_iff.2 checked, rfl⟩⟩
    · refine ⟨fun failure ofBuild => ?_, fun c' r loaded' built => ?_⟩
      · rw [run_eq_failed_iff_refused read, or_iff_right (accepted failure)]
        constructor
        · rintro ⟨c, format, _, -, -, ⟨⟩, refused⟩
          exact refused
        · exact fun refused => ⟨c, format, o, loaded, checked, rfl, refused⟩
      · rw [← loadConfig_eq_ok_iff] at loaded loaded'
        cases loaded.symm.trans loaded'
        exact run_unprintable_iff read loaded (dateFormat_eq_ok_iff.2 checked)
          (loadBuild_eq_ok_iff.2 built) clock
  case succeeded =>
    obtain ⟨text, printed⟩ := (code_eq_zero_iff read).1 succeeded
    obtain ⟨config, parse | o⟩ := a
    · obtain ⟨c, format, loaded, -, rfl⟩ := (run_parse_eq_printed_iff read).1 printed
      rw [printed]
      exact ⟨c, loadConfig_eq_ok_iff.1 loaded, rfl, c.ofToml_toToml⟩
    · obtain ⟨c, format, r, s, events, stamp, loaded, checked, built, captured, written, rfl⟩ :=
        (run_snapshot_eq_printed_iff read).1 printed
      rw [printed]
      refine ⟨c, loadConfig_eq_ok_iff.1 loaded, format, r, s, events, stamp,
        dateFormat_eq_ok_iff.1 checked, loadBuild_eq_ok_iff.1 built, captured, written, rfl, ?_⟩
      exact ofJson_shown c s stamp o

def brokenContents : Contents := fun path =>
  if path = "broken.toml" then some ⟨#[0xff]⟩ else none

/-- The broken configuration counts before the missing build. -/
theorem broken_fails_first :
    run (filesOf brokenContents) noon ["--config=broken.toml", "snapshot", "--build=nightly.json",
        "--now=1970-01-01T12:00:00Z"] = .failed (.configFile .notText) ∧
    run (filesOf brokenContents) noon ["snapshot", "--build=nightly.json",
        "--now=1970-01-01T12:00:00Z"] = .failed (.buildFile .missing) := by
  have time : readTime? "1970-01-01T12:00:00Z" = some noon := rfl
  have readBroken : Arguments.read ["--config=broken.toml", "snapshot", "--build=nightly.json",
      "--now=1970-01-01T12:00:00Z"] = .ok ⟨some "broken.toml", .snapshot nightlyOptions⟩ := by
    simp [Arguments.read, readOptions, classify, splitValue, rootSpecs,
      snapshotSpecs, fileSpec, addOption, values, readSnapshot, readAll, value?, bind, Except.bind,
      pure, Except.pure, time, nightlyOptions]
  constructor
  · exact ((run_all_or_nothing readBroken brokenContents noon).1 _ rfl).2
      (.file (.notText (by decide)))
  · exact ((run_all_or_nothing read_nightly.1 brokenContents noon).2.1
      default_not_refused).1 _ rfl |>.2 .missing

end BuildCapture.Command
