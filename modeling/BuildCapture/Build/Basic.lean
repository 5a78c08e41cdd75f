import BuildCapture.Report.Basic
import BuildCapture.Time.Instant
set_option autoImplicit false

namespace BuildCapture

inductive BuildResult where
  | success
  | unstable
  | failure
  | notBuilt
  | aborted
  deriving DecidableEq, Repr

namespace BuildResult

def all : List BuildResult := [.success, .unstable, .failure, .notBuilt, .aborted]

def name : BuildResult → String
  | .success => "SUCCESS"
  | .unstable => "UNSTABLE"
  | .failure => "FAILURE"
  | .notBuilt => "NOT_BUILT"
  | .aborted => "ABORTED"

def named : List (String × BuildResult) := all.map fun result => (result.name, result)

end BuildResult

structure Project where
  name : String
  fullName : String
  deriving DecidableEq

structure Node where
  displayName : String
  labelString : String
  deriving DecidableEq

/-- A slot that runs a build; its node is gone once it is offline. -/
structure Executor where
  node : Option Node
  deriving DecidableEq

abbrev Variables := NameMap String

structure Contributor where
  vars : Variables
  deriving DecidableEq

def Contributor.contribute (c : Contributor) (environment : Variables) : Variables :=
  environment ++ c.vars

structure Build where
  id : String
  project : Project
  displayName : Option String := none
  fullDisplayName : Option String := none
  description : Option String := none
  url : Option String := none
  number : Int32
  startTime : Instant
  /-- When the build was scheduled, if that is not when it started. -/
  timestamp : Option Instant := none
  /-- None while the build runs. -/
  result : Option BuildResult := none
  executor : Option Executor := none
  actions : List Report := []
  /-- None if the host cannot resolve the environment. -/
  environment : Option Variables := none
  buildVariables : Variables := ∅
  sensitiveBuildVariables : NameSet := ∅
  /-- The contributors in the order in which they apply; an empty place is passed over. -/
  environments : List (Option Contributor) := []
  deriving DecidableEq

structure HostError where
  build : String
  deriving DecidableEq, Repr

def HostError.message (e : HostError) : String :=
  s!"Host Error environment of {e.build} is unavailable"

namespace Build

def numberText (b : Build) : String := toString b.number.toInt

def defaultName (b : Build) : String := "#" ++ b.numberText

def defaultFullName (b : Build) (name : String) : String := b.project.fullName ++ " " ++ name

def defaultUrl (b : Build) : String := s!"job/{b.project.fullName}/{b.numberText}/"

def withDefaults (b : Build) : Build :=
  let name := b.displayName.getD b.defaultName
  { b with
    displayName := some name
    fullDisplayName := some (b.fullDisplayName.getD (b.defaultFullName name))
    url := some (b.url.getD b.defaultUrl) }

def new (id : String) (project : Project) (number : Int32) (startTime : Instant) : Build :=
  let name := s!"#{number.toInt}"
  { id, project, number, startTime
    displayName := some name
    fullDisplayName := some s!"{project.fullName} {name}"
    url := some s!"job/{project.fullName}/{number.toInt}/" }

def name (b : Build) : String := b.displayName.getD ""

def fullName (b : Build) : String := b.fullDisplayName.getD ""

def address (b : Build) : String := b.url.getD ""

def scheduled (b : Build) : Instant := b.timestamp.getD b.startTime

def contributors (b : Build) : List Contributor := b.environments.filterMap fun c => c

def node? (b : Build) : Option Node := b.executor.bind Executor.node

def report? (b : Build) (kind : ReportKind) : Option Report :=
  b.actions.find? fun r => r.kind? = some kind

def resolveEnvironment (b : Build) : Except HostError Variables :=
  match b.environment with
  | some environment => .ok environment
  | none => .error ⟨b.fullName⟩

/-- Attaches a report in place of those of its kind. -/
def attach (b : Build) (r : Report) : Build :=
  let kept :=
    match r.kind? with
    | some kind => b.actions.filter fun other => other.kind? ≠ some kind
    | none => b.actions
  { b with actions := kept ++ [r] }

end Build

/-- A build and the builds that triggered it, the nearest first. -/
structure Recording where
  build : Build
  triggers : List Build
  deriving DecidableEq

namespace Recording

def parent? (r : Recording) : Option Recording :=
  match r.triggers with
  | [] => none
  | b :: rest => some ⟨b, rest⟩

def withParent (b : Build) (parent : Option Recording) : Recording :=
  match parent with
  | none => ⟨b, []⟩
  | some p => ⟨b, p.build :: p.triggers⟩

def root (r : Recording) : Build := r.triggers.getLast?.getD r.build

def withDefaults (r : Recording) : Recording :=
  ⟨r.build.withDefaults, r.triggers.map Build.withDefaults⟩

/-- The recording as a host shows it that does not tell which variables are sensitive. -/
def withoutSensitive (r : Recording) : Recording :=
  { r with build := { r.build with sensitiveBuildVariables := ∅ } }

end Recording

end BuildCapture
