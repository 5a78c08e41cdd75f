import BuildCapture.Slot
import BuildCapture.Summary.Basic
import BuildCapture.Text.Blank
import BuildCapture.Time.DateFormat
set_option autoImplicit false

namespace BuildCapture

structure Snapshot where
  id : String
  result : Slot BuildResult
  projectName : String
  fullProjectName : String
  displayName : String
  fullDisplayName : String
  description : Option String
  url : String
  buildHost : String
  buildLabel : String
  buildNum : Int32
  /-- Milliseconds from the start of the build to the capture. -/
  buildDuration : Int64
  timestamp : String
  rootProjectName : String
  rootFullProjectName : String
  rootProjectDisplayName : String
  rootBuildNum : Int32
  buildVariables : Variables
  /-- The names withheld from the variables. -/
  sensitiveBuildVariables : NameSet
  testResults : Slot TestSummary
  gitInfo : Slot SourceSummary
  mavenInfo : Slot DependencySummary
  dockerInfo : Slot ImageSummary
  deriving DecidableEq

/-- How a build runs: on an executor, with variables and triggers of its own, or without one. -/
inductive Mode where
  | direct
  | delegated
  deriving DecidableEq, Repr

def master : String := "master"

def nonBlankOrMaster (s : String) : String := if Text.allBlank s then master else s

def Build.hostAndLabel (b : Build) : String × String :=
  match b.node? with
  | some node => (nonBlankOrMaster node.displayName, nonBlankOrMaster node.labelString)
  | none => (master, master)

def fillReport {α : Type} (slot : Slot α) (kind : ReportKind) (summary : Option Report → α)
    (events : Option Report → List Event) (b : Build) : Slot α × List Event :=
  let report := b.report? kind
  let (slot, filled) := slot.fillWith fun _ => report.map fun r => summary (some r)
  (slot, if filled then events report ++ [.reportCaptured kind b.fullName] else [])

namespace Snapshot

def updateResult (s : Snapshot) (b : Build) : Snapshot × List Event :=
  let quiet : Option Report → List Event := fun _ => []
  let (result, filled) := s.result.fillWith fun _ => b.result
  let (tests, testEvents) := fillReport s.testResults .testResults .ofReport quiet b
  let (git, gitEvents) := fillReport s.gitInfo .sourceControl .ofReport SourceSummary.events b
  let (maven, mavenEvents) := fillReport s.mavenInfo .dependency .ofReport quiet b
  let (docker, dockerEvents) := fillReport s.dockerInfo .imageFingerprint .ofReport quiet b
  ({ s with
      result := result
      testResults := tests
      gitInfo := git
      mavenInfo := maven
      dockerInfo := docker },
    (if filled then [.resultCaptured s.fullDisplayName] else []) ++ testEvents ++ gitEvents ++
      mavenEvents ++ dockerEvents)

def setResult (s : Snapshot) (r : BuildResult) : Snapshot :=
  { s with result := (s.result.replace (some r)).1 }

def setTestResults (s : Snapshot) (tests : Option TestSummary) : Snapshot :=
  { s with testResults := (s.testResults.replace tests).1 }

end Snapshot

end BuildCapture
