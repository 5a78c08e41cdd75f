import BuildCapture.Command.Option
import BuildCapture.Time.Rfc3339.Reader
set_option autoImplicit false

namespace BuildCapture.Command

structure SnapshotOptions where
  build : String
  delegated : Bool := false
  /-- The time of the capture, if it is not the present. -/
  now : Option Instant := none
  /-- Whether the snapshot goes into an envelope. -/
  payload : Bool := false
  message : List String := []
  pretty : Bool := false
  deriving DecidableEq

inductive Action where
  | parse
  | snapshot (options : SnapshotOptions)
  deriving DecidableEq

structure Arguments where
  config : Option String
  action : Action
  deriving DecidableEq

def fileSpec (name : String) (letter : Char) (about : String) : OptionSpec where
  name := name
  letter := some letter
  takesValue := true
  accepts path := path ≠ ""
  about := about

def readTime? (s : String) : Option Instant := (Rfc3339.read s).toOption

def rootSpecs : List OptionSpec := [fileSpec "config" 'c' "Path to the configuration file"]

def snapshotSpecs : List OptionSpec :=
  [fileSpec "build" 'b' "Recorded build (JSON)",
    { name := "delegated"
      about := "Treat the build as a pipeline run without executor or trigger chain" },
    { name := "now", takesValue := true, accepts := fun s => (readTime? s).isSome
      about := "Capture time in RFC 3339, defaults to now" },
    { name := "payload", about := "Wrap the snapshot in a log payload" },
    { name := "message", letter := some 'm', takesValue := true, repeatable := true
      about := "Log line to attach to the payload, may be repeated" },
    { name := "pretty", about := "Pretty-print the JSON output" }]

def readAll (specs : List OptionSpec) (words : List String) : Except Stop (List Given) := do
  let (given, rest) ← readOptions specs [] words
  if rest.isEmpty then return given else throw .usage

def readSnapshot (words : List String) : Except Stop SnapshotOptions := do
  let given ← readAll snapshotSpecs words
  let has name := !(values given name).isEmpty
  match value? given "build" with
  | none => throw .usage
  | some build =>
    return {
      build
      delegated := has "delegated"
      now := (value? given "now").bind readTime?
      payload := has "payload"
      message := values given "message"
      pretty := has "pretty" }

inductive Topic where
  | program
  | parse
  | snapshot
  | help
  deriving DecidableEq, Repr

def commands : List (String × Topic) :=
  [("parse", .parse), ("snapshot", .snapshot), ("help", .help)]

def helpTopic? : List String → Option Topic
  | [] => some .program
  | [command] => commands.lookup command
  | _ => none

inductive Refusal where
  | usage
  | help (topic : Topic)
  deriving DecidableEq, Repr

def Refusal.ofStop (topic : Topic) : Stop → Refusal
  | .usage => .usage
  | .help => .help topic

/-- The options of the program come before the name of the action, and those of the action after
it. -/
def Arguments.read (words : List String) : Except Refusal Arguments := do
  let (given, rest) ← (readOptions rootSpecs [] words).mapError (.ofStop .program)
  let config := value? given "config"
  match rest with
  | "parse" :: rest =>
    let _ ← (readAll [] rest).mapError (.ofStop .parse)
    return ⟨config, .parse⟩
  | "snapshot" :: rest =>
    return ⟨config, .snapshot (← (readSnapshot rest).mapError (.ofStop .snapshot))⟩
  | "help" :: rest => throw ((helpTopic? rest).elim .usage .help)
  | _ => throw .usage

end BuildCapture.Command
