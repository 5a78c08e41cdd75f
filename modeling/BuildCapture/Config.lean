import BuildCapture.Time.DateFormat
import BuildCapture.Toml.Reader
import BuildCapture.Toml.Writer
set_option autoImplicit false

/-!
The configuration of the program and its TOML form. Every section may be left out, and every value
but the version of a section `global` that is there.
-/

namespace BuildCapture

def Config.defaultSource : String := "ci"

/-- The defaults are the values of sections that are left out. -/
structure Config where
  version : String := "1.0.0"
  dateFormat : String := DateFormat.defaultPattern
  /-- The kind of system that envelopes come from. -/
  source : String := Config.defaultSource
  sourceHost : String := ""
  deriving DecidableEq, Inhabited

namespace Config

inductive Error where
  | malformed
  | mismatch (mismatch : Mismatch)
  deriving DecidableEq, Repr

/-- A key of a section and where its value goes. A section that is there without the key gets the
default, and is refused if there is none. -/
structure Setting where
  key : String
  default? : Option String
  set : Config → String → Config

structure Section where
  name : String
  settings : List Setting

namespace Section

def readText (node : Toml.Node) : Except Mismatch String :=
  match node.found with
  | .string s => .ok s
  | found => .error (.wrongType found .string)

def readEntries (s : Section) (c : Config) : Toml.Entries → Except Mismatch Config
  | [] => .ok c
  | (key, node) :: rest =>
    match s.settings.find? (·.key = key) with
    | some setting => do s.readEntries (setting.set c (← readText node)) rest
    | none => s.readEntries c rest

def complete (c : Config) (entries : Toml.Entries) : List Setting → Except Mismatch Config
  | [] => .ok c
  | setting :: settings =>
    match entries.lookup setting.key, setting.default? with
    | some _, _ => complete c entries settings
    | none, some text => complete (setting.set c text) entries settings
    | none, none => .error (.missingField setting.key)

def readTable (s : Section) (c : Config) (entries : Toml.Entries) : Except Mismatch Config := do
  complete (← s.readEntries c entries) entries s.settings

/-- Reads settings from items in their order; items past the last setting are passed over. -/
def readItems (s : Section) (c : Config) :
    (place : Nat) → List Setting → List Toml.Node → Except Mismatch Config
  | _, [], _ => .ok c
  | place, setting :: settings, [] =>
    match setting.default? with
    | some text => s.readItems (setting.set c text) (place + 1) settings []
    | none => .error (.wrongLength place (.recordOf s.name s.settings.length))
  | place, setting :: settings, node :: rest => do
    s.readItems (setting.set c (← readText node)) (place + 1) settings rest

/-- A section is a table of its settings, or a list of them. A date counts as a table of something
else. -/
def read (s : Section) (c : Config) (node : Toml.Node) : Except Mismatch Config :=
  match node with
  | .table _ entries => s.readTable c entries
  | .dateTime => s.readTable c []
  | .array items | .tables items => s.readItems c 0 s.settings items
  | node => .error (.wrongType node.found (.record s.name))

end Section

def sections : List (String × Section) :=
  [("global", ⟨"BsnapGlobalConfig", [⟨"version", none, fun c s => { c with version := s }⟩]⟩),
    ("formatter",
      ⟨"BsnapFormatterConfig",
        [⟨"date_format", some DateFormat.defaultPattern, fun c s => { c with dateFormat := s }⟩]⟩),
    ("payload",
      ⟨"BsnapPayloadConfig",
        [⟨"source", some defaultSource, fun c s => { c with source := s }⟩,
          ⟨"source_host", some "", fun c s => { c with sourceHost := s }⟩]⟩)]

def readSections (c : Config) : Toml.Entries → Except Mismatch Config
  | [] => .ok c
  | (name, node) :: rest =>
    match sections.lookup name with
    | some s => do (← s.read c node).readSections rest
    | none => c.readSections rest

def ofToml (s : String) : Except Error Config :=
  match Toml.read s with
  | none => .error .malformed
  | some entries => (readSections {} entries).mapError .mismatch

def toToml (c : Config) : String :=
  Toml.write
    [("global", [("version", c.version)]),
      ("formatter", [("date_format", c.dateFormat)]),
      ("payload", [("source", c.source), ("source_host", c.sourceHost)])]

def dateFormatter (c : Config) : Except InvalidPattern DateFormat :=
  DateFormat.ofPattern c.dateFormat

end Config

end BuildCapture
