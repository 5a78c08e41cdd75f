import BuildCapture.Report.Codec
import BuildCapture.Summary.Basic
set_option autoImplicit false

namespace BuildCapture

open Json

def FailedTest.record : Record FailedTest where
  name := "FailedTest"
  fields := .cons (.required "fullName" .string) <| .cons (.nullable "errorDetails" .string) .nil
  build := fun (fullName, errorDetails, ()) => ⟨fullName, errorDetails⟩
  parts t := (t.fullName, t.errorDetails, ())

def TestSummary.record : Record TestSummary where
  name := "TestSummary"
  fields :=
    .cons (.required "totalCount" .int32) <|
    .cons (.required "skipCount" .int32) <|
    .cons (.required "failCount" .int32) <|
    .cons (.required "passCount" .int32) <|
    .cons (.required "failedTestsWithErrorDetail" FailedTest.record.codec.list) <|
    .cons (.required "failedTests" Codec.string.list) .nil
  build := fun (total, skip, fail, pass, details, names, ()) =>
    ⟨total, skip, fail, pass, details, names⟩
  parts s := (s.totalCount, s.skipCount, s.failCount, s.passCount, s.failedTestsWithErrorDetail,
    s.failedTests, ())

def SourceSummary.record : Record SourceSummary where
  name := "SourceControlSummary"
  fields :=
    .cons (.nullable "scmName" .string) <|
    .cons (.nullable "revision" .string) <|
    .cons (.required "remoteUrls" .nameSet) .nil
  build := fun (scmName, revision, remoteUrls, ()) => ⟨scmName, revision, remoteUrls⟩
  parts s := (s.scmName, s.revision, s.remoteUrls, ())

def DependencySummary.record : Record DependencySummary where
  name := "DependencySummary"
  fields :=
    .cons (.required "deployedArtifacts" Artifact.record.codec.list) <|
    .cons (.required "generatedArtifacts" Artifact.record.codec.list) <|
    .cons (.required "downstreamJobs" Codec.string.list) <|
    .cons (.required "upstreamJobs" Codec.string.list) <|
    .cons (.required "dependencies" Dependency.codec.list) <|
    .cons (.required "downstreamJobsByArtifact" (.nameMap Codec.string.list)) .nil
  build := fun (deployed, generated, consumers, producers, dependencies, byArtifact, ()) =>
    ⟨deployed, generated, consumers, producers, dependencies, byArtifact⟩
  parts s := (s.deployedArtifacts, s.generatedArtifacts, s.consumerJobs, s.producerJobs,
    s.dependencies, s.consumerJobsByArtifact, ())

def ImageSummary.record : Record ImageSummary where
  name := "ImageFingerprintSummary"
  fields := .cons (.required "imageIDs" .nameSet) .nil
  build := fun (imageIds, ()) => ⟨imageIds⟩
  parts s := (s.imageIds, ())

end BuildCapture
