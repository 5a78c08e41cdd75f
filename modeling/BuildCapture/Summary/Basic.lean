import BuildCapture.Event
set_option autoImplicit false

namespace BuildCapture

structure FailedTest where
  fullName : String
  errorDetails : Option String
  deriving DecidableEq

/-- The number of passed tests is what the other counts leave of the total, below zero if these do
not fit together. -/
structure TestSummary where
  totalCount : Int32 := 0
  skipCount : Int32 := 0
  failCount : Int32 := 0
  passCount : Int32 := 0
  failedTestsWithErrorDetail : List FailedTest := []
  failedTests : List String := []
  deriving DecidableEq

structure SourceSummary where
  scmName : Option String := none
  revision : Option String := none
  remoteUrls : NameSet := ∅
  deriving DecidableEq

structure DependencySummary where
  deployedArtifacts : List Artifact := []
  generatedArtifacts : List Artifact := []
  consumerJobs : List String := []
  producerJobs : List String := []
  dependencies : List Dependency := []
  consumerJobsByArtifact : NameMap (List String) := ∅
  deriving DecidableEq

structure ImageSummary where
  imageIds : NameSet := ∅
  deriving DecidableEq

namespace TestSummary

def ofReport : Option Report → TestSummary
  | some (.testResults r) =>
    { totalCount := r.totalCount
      skipCount := r.skipCount
      failCount := r.failCount
      passCount := r.totalCount - r.skipCount - r.failCount
      failedTestsWithErrorDetail := r.failedTests.map fun c => ⟨c.fullName, c.errorDetails⟩
      failedTests := r.failedTests.map TestCase.fullName }
  | _ => {}

end TestSummary

namespace SourceSummary

def revisionOf (r : GitReport) : Option String :=
  (r.lastBuild.bind GitBuild.revision).map Revision.sha1

def ofReport : Option Report → SourceSummary
  | some (.sourceControl r) =>
    { scmName := r.scmName, revision := revisionOf r, remoteUrls := r.remoteUrls }
  | _ => {}

def events : Option Report → List Event
  | some (.sourceControl r) => if (revisionOf r).isNone then [.revisionMissing] else []
  | _ => []

end SourceSummary

namespace DependencySummary

def addJobs (jobs : NameMap (List String)) (entry : ArtifactJobs) : NameMap (List String) :=
  jobs.insert entry.artifact.id ((jobs.get? entry.artifact.id).getD [] ++ entry.jobs)

def groupJobs (entries : List ArtifactJobs) : NameMap (List String) := entries.foldl addJobs ∅

def ofReport : Option Report → DependencySummary
  | some (.dependency r) =>
    { deployedArtifacts := r.deployedArtifacts
      generatedArtifacts := r.generatedArtifacts
      consumerJobs := r.consumerJobs
      producerJobs := r.producerBuilds
      dependencies := r.dependencies
      consumerJobsByArtifact := groupJobs r.consumerJobsByArtifact }
  | _ => {}

end DependencySummary

namespace ImageSummary

def ofReport : Option Report → ImageSummary
  | some (.imageFingerprint r) => ⟨r.imageIds⟩
  | _ => {}

end ImageSummary

end BuildCapture
