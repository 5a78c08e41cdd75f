import BuildCapture.Snapshot.Basic
set_option autoImplicit false

/-!
Capturing. A direct capture takes its root from the top of the trigger chain and merges the
variables of the build, its contributors and its environment; a delegated one is its own root and
has its environment only. Sensitive variables are dropped last.
-/

namespace BuildCapture.Snapshot

/-- The snapshot of a build as its own root, without variables and with its slots empty. -/
def bare (b : Build) (now : Instant) (timestamp : String) : Snapshot where
  id := b.id
  result := .empty
  projectName := b.project.name
  fullProjectName := b.project.fullName
  displayName := b.name
  fullDisplayName := b.fullName
  description := b.description
  url := b.address
  buildHost := b.hostAndLabel.1
  buildLabel := b.hostAndLabel.2
  buildNum := b.number
  buildDuration := .ofInt (now.millisSince b.startTime)
  timestamp := timestamp
  rootProjectName := b.project.name
  rootFullProjectName := b.project.fullName
  rootProjectDisplayName := b.name
  rootBuildNum := b.number
  buildVariables := ∅
  sensitiveBuildVariables := ∅
  testResults := .empty
  gitInfo := .empty
  mavenInfo := .empty
  dockerInfo := .empty

def withRoot (s : Snapshot) (root : Build) : Snapshot :=
  { s with
    rootProjectName := root.project.name
    rootFullProjectName := root.project.fullName
    rootProjectDisplayName := root.name
    rootBuildNum := root.number }

theorem withRoot_root_congr {r r' : Recording} (triggers : r'.triggers = r.triggers)
    (project : r'.build.project = r.build.project) (name : r'.build.name = r.build.name)
    (number : r'.build.number = r.build.number) (s : Snapshot) :
    s.withRoot r'.root = s.withRoot r.root := by
  unfold Recording.root
  rw [triggers]
  cases r.triggers.getLast? with
  | none => simp [withRoot, project, name, number]
  | some root => rfl

def withVariables (s : Snapshot) (vars : Variables) (sensitive : NameSet) : Snapshot :=
  { s with
    buildVariables := vars.without sensitive
    sensitiveBuildVariables := sensitive }

/-- Variables on their way into a snapshot: those merged so far, and those that the contributor
whose turn it is sets. -/
structure Merge where
  merged : Variables
  contributed : Variables := ∅

namespace Merge

/-- Moves what has been contributed over to the variables, leaving nothing for the next turn. -/
def moveOver (m : Merge) : Merge := { merged := m.merged ++ m.contributed }

def turn (m : Merge) (c : Contributor) : Merge :=
  { m with contributed := c.contribute m.contributed }.moveOver

end Merge

/-- The variables of the build itself, then those of its contributors in turn. -/
def contributedVariables (b : Build) : Variables :=
  (b.contributors.foldl Merge.turn { merged := b.buildVariables }).merged

def allVariables (mode : Mode) (b : Build) : Variables × List Event :=
  match mode, b.resolveEnvironment with
  | .direct, .ok environment => (contributedVariables b ++ environment, [])
  | .direct, .error e => (contributedVariables b, [.variablesIncomplete b.name e])
  | .delegated, .ok environment => (environment, [])
  | .delegated, .error e => (∅, [.environmentMissing b.name e])

def captureAt (mode : Mode) (r : Recording) (now : Instant) (timestamp : String) :
    Snapshot × List Event :=
  let (s, captured) := (bare r.build now timestamp).updateResult r.build
  let s :=
    match mode with
    | .direct => s.withRoot r.root
    | .delegated => s
  let (vars, missed) := allVariables mode r.build
  (s.withVariables vars r.build.sensitiveBuildVariables, captured ++ missed)

/-- The snapshot of a build and the events on the way; none if its timestamp has no printed form. -/
def capture (mode : Mode) (r : Recording) (now : Instant) (format : DateFormat) :
    Option (Snapshot × List Event) :=
  (format.write r.build.scheduled).map (captureAt mode r now)

def direct (r : Recording) (now : Instant) (format : DateFormat) :
    Option (Snapshot × List Event) :=
  capture .direct r now format

def delegated (r : Recording) (now : Instant) (format : DateFormat) :
    Option (Snapshot × List Event) :=
  capture .delegated r now format

end BuildCapture.Snapshot
