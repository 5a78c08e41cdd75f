import BuildCapture.Build.Codec
import BuildCapture.Snapshot.Basic
import BuildCapture.Summary.Codec
set_option autoImplicit false

namespace BuildCapture

open Json

def Slot.codec {α : Type} (c : Codec α) : Codec (Slot α) := c.option.convert Slot.mk Slot.get

def Slot.field {α : Type} (name : String) (c : Codec α) : RecordField (Slot α) :=
  .defaulted name (Slot.codec c) .empty

namespace Snapshot

def record : Record Snapshot where
  name := "BuildSnapshot"
  fields :=
    .cons (.required "id" .string) <|
    .cons (Slot.field "result" BuildResult.codec) <|
    .cons (.required "projectName" .string) <|
    .cons (.required "fullProjectName" .string) <|
    .cons (.required "displayName" .string) <|
    .cons (.required "fullDisplayName" .string) <|
    .cons (.nullable "description" .string) <|
    .cons (.required "url" .string) <|
    .cons (.required "buildHost" .string) <|
    .cons (.required "buildLabel" .string) <|
    .cons (.required "buildNum" .int32) <|
    .cons (.required "buildDuration" .int64) <|
    .cons (.required "timestamp" .string) <|
    .cons (.required "rootProjectName" .string) <|
    .cons (.required "rootFullProjectName" .string) <|
    .cons (.required "rootProjectDisplayName" .string) <|
    .cons (.required "rootBuildNum" .int32) <|
    .cons (.required "buildVariables" Variables.codec) <|
    .cons (.required "sensitiveBuildVariables" .nameSet) <|
    .cons (Slot.field "testResults" TestSummary.record.codec) <|
    .cons (Slot.field "gitInfo" SourceSummary.record.codec) <|
    .cons (Slot.field "mavenInfo" DependencySummary.record.codec) <|
    .cons (Slot.field "dockerInfo" ImageSummary.record.codec) .nil
  build := fun (id, result, projectName, fullProjectName, displayName, fullDisplayName, description,
      url, buildHost, buildLabel, buildNum, buildDuration, timestamp, rootProjectName,
      rootFullProjectName, rootProjectDisplayName, rootBuildNum, buildVariables,
      sensitiveBuildVariables, testResults, gitInfo, mavenInfo, dockerInfo, ()) =>
    { id, result, projectName, fullProjectName, displayName, fullDisplayName, description, url,
      buildHost, buildLabel, buildNum, buildDuration, timestamp, rootProjectName,
      rootFullProjectName, rootProjectDisplayName, rootBuildNum, buildVariables,
      sensitiveBuildVariables, testResults, gitInfo, mavenInfo, dockerInfo }
  parts s :=
    (s.id, s.result, s.projectName, s.fullProjectName, s.displayName, s.fullDisplayName,
      s.description, s.url, s.buildHost, s.buildLabel, s.buildNum, s.buildDuration, s.timestamp,
      s.rootProjectName, s.rootFullProjectName, s.rootProjectDisplayName, s.rootBuildNum,
      s.buildVariables, s.sensitiveBuildVariables, s.testResults, s.gitInfo, s.mavenInfo,
      s.dockerInfo, ())

def ofJson (s : String) : Except Error Snapshot := record.codec.decode s

def toValue (s : Snapshot) : Value := record.codec.write s

def toJson (s : Snapshot) : String := record.codec.encode s

end Snapshot

end BuildCapture
