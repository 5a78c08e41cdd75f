import BuildCapture.Names.NameMap
set_option autoImplicit false

namespace BuildCapture

inductive ReportKind where
  | testResults
  | sourceControl
  | dependency
  | imageFingerprint
  deriving DecidableEq, Repr

namespace ReportKind

/-- The kinds in the order in which a snapshot captures them. -/
def all : List ReportKind := [.testResults, .sourceControl, .dependency, .imageFingerprint]

def name : ReportKind → String
  | .testResults => "test_results"
  | .sourceControl => "source_control"
  | .dependency => "dependency"
  | .imageFingerprint => "image_fingerprint"

def title : ReportKind → String
  | .testResults => "TestResults"
  | .sourceControl => "SourceControl"
  | .dependency => "Dependency"
  | .imageFingerprint => "ImageFingerprint"

def named : List (String × ReportKind) := all.map fun kind => (kind.name, kind)

end ReportKind

structure TestCase where
  fullName : String
  errorDetails : Option String
  deriving DecidableEq

structure TestReport where
  totalCount : Int32
  skipCount : Int32
  failCount : Int32
  failedTests : List TestCase
  deriving DecidableEq

structure Revision where
  sha1 : String
  branches : List String
  deriving DecidableEq

structure GitBuild where
  buildNumber : Int32
  revision : Option Revision
  deriving DecidableEq

structure GitReport where
  scmName : Option String
  remoteUrls : NameSet
  /-- The latest build recorded for the repository. -/
  lastBuild : Option GitBuild
  deriving DecidableEq

structure Artifact where
  groupId : String
  artifactId : String
  version : String
  baseVersion : Option String
  type : Option String
  classifier : Option String
  extension : Option String
  file : Option String
  snapshot : Bool
  repositoryUrl : Option String
  deriving DecidableEq

namespace Artifact

def typeOrJar (a : Artifact) : String := a.type.getD "jar"

def classifier? (a : Artifact) : Option String := a.classifier.filter (· ≠ "")

def coordinates (a : Artifact) : List String :=
  [a.groupId, a.artifactId, a.typeOrJar] ++ a.classifier?.toList ++ [a.version]

/-- Reads `groupId:artifactId:type:version`, the classifier before the version if there is one. -/
def id (a : Artifact) : String := ":".intercalate a.coordinates

end Artifact

structure Dependency where
  artifact : Artifact
  scope : Option String
  optional : Bool
  deriving DecidableEq

structure ArtifactJobs where
  artifact : Artifact
  jobs : List String
  deriving DecidableEq

structure MavenReport where
  deployedArtifacts : List Artifact
  generatedArtifacts : List Artifact
  /-- The jobs that use what this build made. -/
  consumerJobs : List String
  /-- The builds that made what this one uses. -/
  producerBuilds : List String
  dependencies : List Dependency
  consumerJobsByArtifact : List ArtifactJobs
  deriving DecidableEq

structure ImageReport where
  imageIds : NameSet
  deriving DecidableEq

inductive Report where
  | testResults (report : TestReport)
  | sourceControl (report : GitReport)
  | dependency (report : MavenReport)
  | imageFingerprint (report : ImageReport)
  | unknown
  deriving DecidableEq

def Report.kind? : Report → Option ReportKind
  | .testResults _ => some .testResults
  | .sourceControl _ => some .sourceControl
  | .dependency _ => some .dependency
  | .imageFingerprint _ => some .imageFingerprint
  | .unknown => none

end BuildCapture
