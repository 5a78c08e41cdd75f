import BuildCapture.Command.Arguments
set_option autoImplicit false

namespace BuildCapture.Command

def helpSpec : OptionSpec := { name := "help", letter := some 'h', about := "Print help" }

def OptionSpec.synopsis (spec : OptionSpec) : String :=
  (match spec.letter with | some letter => s!"-{letter}, " | none => "    ") ++ "--" ++ spec.name ++
    if spec.takesValue then s!" <{spec.name.toUpper}>" else ""

def columns (rows : List (String × String)) : String :=
  let width := (rows.map (·.1.length)).foldl max 0
  String.join <| rows.map fun (first, second) =>
    "  " ++ String.ofList (first.toList.rightpad width ' ') ++ "  " ++ second ++ "\n"

namespace Topic

def about : Topic → String
  | .program => "bsnap - Capture build-info snapshots as JSON documents"
  | .parse => "Parse and display the effective configuration"
  | .snapshot => "Capture a snapshot of a recorded build"
  | .help => "Print this message or the help of the given subcommand(s)"

def usage : Topic → String
  | .program => "bsnapcli [OPTIONS] <COMMAND>"
  | .parse => "bsnapcli parse"
  | .snapshot => "bsnapcli snapshot [OPTIONS] --build <BUILD>"
  | .help => "bsnapcli help [COMMAND]..."

def options (specs : List OptionSpec) : String × List (String × String) :=
  ("Options", (specs ++ [helpSpec]).map fun spec => (spec.synopsis, spec.about))

def tables : Topic → List (String × List (String × String))
  | .program =>
    [("Commands", commands.map fun (name, command) => (name, command.about)), options rootSpecs]
  | .parse => [options []]
  | .snapshot => [options snapshotSpecs]
  | .help => [("Arguments", [("[COMMAND]...", "Print help for the subcommand(s)")])]

def page (topic : Topic) : String :=
  topic.about ++ "\n\nUsage: " ++ topic.usage ++ "\n" ++
    String.join (topic.tables.map fun (title, rows) => "\n" ++ title ++ ":\n" ++ columns rows)

end Topic

end BuildCapture.Command
