import BuildCapture.Build.Basic
set_option autoImplicit false

namespace BuildCapture

inductive Event where
  /-- A direct capture goes on without the environment of the build. -/
  | variablesIncomplete (build : String) (cause : HostError)
  /-- A delegated capture has no variables, as the environment of the build is unavailable. -/
  | environmentMissing (build : String) (cause : HostError)
  | resultCaptured (snapshot : String)
  | reportCaptured (kind : ReportKind) (build : String)
  | revisionMissing
  deriving DecidableEq, Repr

namespace Event

def isWarning : Event → Bool
  | .variablesIncomplete _ _ | .environmentMissing _ _ => true
  | _ => false

def text : Event → String
  | .variablesIncomplete build cause =>
    s!"Unable to update buildVariables with the environment of {build}: {cause.message}"
  | .environmentMissing build cause =>
    s!"Unable to get the environment of {build}: {cause.message}"
  | .resultCaptured snapshot => s!"Captured result of {snapshot}"
  | .reportCaptured kind build => s!"Captured {kind.title} report of {build}"
  | .revisionMissing => "No revision recorded for the last git build"

def line (e : Event) : String := (if e.isWarning then "WARN " else "DEBUG ") ++ e.text

end Event

end BuildCapture
