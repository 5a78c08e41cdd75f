import BuildCapture.Command.Help
import BuildCapture.Config
import BuildCapture.Envelope
import BuildCapture.File
import BuildCapture.Snapshot.Capture
set_option autoImplicit false

namespace BuildCapture.Command

inductive Failure where
  | configFile (error : FileError)
  | config (error : Config.Error)
  | dateFormat (error : InvalidPattern)
  | buildFile (error : FileError)
  | build (error : Json.Error)
  deriving DecidableEq, Repr

inductive Outcome where
  | printed (text : String)
  | failed (failure : Failure)
  /-- A timestamp has no printed form. -/
  | unprintable
  | refused (refusal : Refusal)
  deriving DecidableEq, Repr

def Outcome.code : Outcome → UInt32
  | .printed _ | .refused (.help _) => 0
  | .failed _ => 1
  | .refused .usage => 2
  | .unprintable => 101

abbrev Files := String → Except FileError String

def loadConfig (files : Files) : Option String → Except Failure Config
  | none => .ok default
  | some path => do
    let text ← (files path).mapError .configFile
    (Config.ofToml text).mapError .config

def dateFormat (c : Config) : Except Failure DateFormat := c.dateFormatter.mapError .dateFormat

def loadBuild (files : Files) (path : String) : Except Failure Recording := do
  let text ← (files path).mapError .buildFile
  (Recording.ofJson text).mapError .build

def printJson (pretty : Bool) (v : Json.Value) : String :=
  (if pretty then v.writeIndented else v.write) ++ "\n"

/-- The document of a snapshot, alone or in an envelope; none if a timestamp has no printed form. -/
def document (c : Config) (format : DateFormat) (r : Recording) (now : Instant)
    (o : SnapshotOptions) : Option Json.Value := do
  let mode := if o.delegated then Mode.delegated else Mode.direct
  let (s, _) ← Snapshot.capture mode r now format
  if o.payload then
    return (← Envelope.new s o.message c.source c.sourceHost now format).toValue
  else return s.toValue

def perform (files : Files) (clock : Instant) (a : Arguments) : Except Failure (Option String) := do
  let c ← loadConfig files a.config
  let format ← dateFormat c
  match a.action with
  | .parse => return some c.toToml
  | .snapshot o =>
    let r ← loadBuild files o.build
    return (document c format r (o.now.getD clock) o).map (printJson o.pretty)

def run (files : Files) (clock : Instant) (words : List String) : Outcome :=
  match Arguments.read words with
  | .error refusal => .refused refusal
  | .ok a =>
    match perform files clock a with
    | .error failure => .failed failure
    | .ok (some text) => .printed text
    | .ok none => .unprintable

def Failure.name : Failure → String
  | .configFile _ => "Config.IO"
  | .config _ => "Config.Deserialization"
  | .dateFormat _ => "Config.Formatter"
  | .buildFile _ => "Snapshot.IO"
  | .build _ => "Snapshot.Json"

/-- What a failure says, without the place in the file; none for a text that cannot be parsed, as it
is the parser that says then what is wrong. -/
def Failure.message? : Failure → Option String
  | .configFile e | .buildFile e => some e.message
  | .config .malformed | .build (.fault _) => none
  | .config (.mismatch m) => some (m.message .positional)
  | .dateFormat e => some e.message
  | .build (.mismatch m) => some (m.message .compact)

def Outcome.stdout : Outcome → String
  | .printed text => text
  | .refused (.help topic) => topic.page
  | .failed _ | .unprintable | .refused .usage => ""

end BuildCapture.Command
