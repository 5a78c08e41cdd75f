import BuildCapture.Proofs.Command.Run
import BuildCapture.Proofs.Toml.Documents
set_option autoImplicit false

namespace BuildCapture

namespace Config

def tables (c : Config) : List (String × List (String × String)) :=
  [("global", [("version", c.version)]),
    ("formatter", [("date_format", c.dateFormat)]),
    ("payload", [("source", c.source), ("source_host", c.sourceHost)])]

theorem tables_plain (c : Config) : Toml.Plain c.tables where
  names := by
    simp only [tables, List.forall_mem_cons]
    decide
  keys := by
    simp only [tables, List.forall_mem_cons]
    decide
  distinctNames := (by decide : ["global", "formatter", "payload"].Nodup)
  distinctKeys := by
    simp only [tables, List.forall_mem_cons, List.map_cons,
      List.map_nil]
    decide

theorem readSections_tables (c : Config) :
    readSections {} (c.tables.map Toml.tableNode) = .ok c := rfl

theorem ofToml_toToml (c : Config) : ofToml c.toToml = .ok c := by
  have read : Toml.read c.toToml = some (c.tables.map Toml.tableNode) :=
    Toml.read_write c.tables_plain
  rw [ofToml, read]
  exact congrArg (Except.mapError Error.mismatch) c.readSections_tables

end Config

namespace Command

theorem loadConfig_printed {files : Files} {path : String} {c : Config}
    (file : files path = .ok c.toToml) : loadConfig files (some path) = .ok c :=
  bind_eq_ok_iff.2 ⟨_, mapError_eq_ok_iff.2 file, mapError_eq_ok_iff.2 c.ofToml_toToml⟩

theorem run_parse_eq_printed_iff {files : Files} {clock : Instant} {words : List String}
    {config : Option String} {text : String} (read : Arguments.read words = .ok ⟨config, .parse⟩) :
    run files clock words = .printed text ↔
      ∃ c format, loadConfig files config = .ok c ∧ dateFormat c = .ok format ∧
        text = c.toToml := by
  refine (run_eq_iff (some text)).trans ?_
  simp [read, perform_eq_ok_iff]

/-- A configuration is read back from its text. So a text that is printed for a configuration file
is a configuration file too, and printed for it again. -/
theorem parse_printed_again :
    (∀ c : Config, Config.ofToml c.toToml = .ok c) ∧
    ∀ {files files' : Files} {clock clock' : Instant} {words words' : List String}
      {config : Option String} {path text : String},
      Arguments.read words = .ok ⟨config, .parse⟩ → run files clock words = .printed text →
      Arguments.read words' = .ok ⟨some path, .parse⟩ → files' path = .ok text →
      run files' clock' words' = .printed text := by
  refine ⟨Config.ofToml_toToml, ?_⟩
  intro files files' clock clock' words words' config path text read printed read' file
  obtain ⟨c, format, -, checked, rfl⟩ := (run_parse_eq_printed_iff read).1 printed
  exact (run_parse_eq_printed_iff read').2 ⟨c, format, loadConfig_printed file, checked, rfl⟩

def quoted : Config where
  source := "it's\n\"\"\""
  sourceHost := "'''\\\r\x01\""

def noon : Instant := ⟨43200, 0, by decide, by decide, by decide⟩

/-- What is printed without a configuration file may be saved as one. -/
theorem quoted_printed_again :
    Config.ofToml quoted.toToml = .ok quoted ∧
    run (fun _ => .error .missing) noon ["parse"] = .printed (default : Config).toToml ∧
    run (fun _ => .ok (default : Config).toToml) noon ["--config=saved.toml", "parse"] =
      .printed (default : Config).toToml := by
  have read : Arguments.read ["parse"] = .ok ⟨none, .parse⟩ := by
    simp [Arguments.read, readOptions, classify, readAll, value?, values, bind, Except.bind, pure,
      Except.pure]
  have readSaved : Arguments.read ["--config=saved.toml", "parse"] =
      .ok ⟨some "saved.toml", .parse⟩ := by
    simp [Arguments.read, readOptions, classify, splitValue, rootSpecs, fileSpec, addOption,
      values, readAll, value?, bind, Except.bind, pure, Except.pure]
  have printed : run (fun _ => .error .missing) noon ["parse"] =
      .printed (default : Config).toToml :=
    (run_parse_eq_printed_iff read).2 ⟨default, _, rfl, rfl, rfl⟩
  exact ⟨parse_printed_again.1 quoted, printed,
    parse_printed_again.2 read printed readSaved rfl⟩

end Command

end BuildCapture
