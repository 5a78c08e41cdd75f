import BuildCapture.Build.Basic
import BuildCapture.Report.Codec
set_option autoImplicit false

namespace BuildCapture

open Json

def BuildResult.codec : Codec BuildResult := .keyword BuildResult.named BuildResult.name

def Project.record : Record Project where
  name := "Project"
  fields := .cons (.required "name" .string) <| .cons (.required "fullName" .string) .nil
  build := fun (name, fullName, ()) => ⟨name, fullName⟩
  parts p := (p.name, p.fullName, ())

def Node.record : Record Node where
  name := "RecordedNode"
  fields :=
    .cons (.defaulted "displayName" .string "") <| .cons (.defaulted "labelString" .string "") .nil
  build := fun (displayName, labelString, ()) => ⟨displayName, labelString⟩
  parts n := (n.displayName, n.labelString, ())

def Executor.record : Record Executor where
  name := "RecordedExecutor"
  fields := .cons (.defaulted "node" Node.record.codec.option none) .nil
  build := fun (node, ()) => ⟨node⟩
  parts e := (e.node, ())

def Variables.codec : Codec Variables := .nameMap .string

def Contributor.record : Record Contributor where
  name := "RecordedEnvironment"
  fields := .cons (.defaulted "vars" Variables.codec ∅) .nil
  build := fun (vars, ()) => ⟨vars⟩
  parts c := (c.vars, ())

namespace Recording

def record (parent : Codec Recording) : Record Recording where
  name := "RecordedBuild"
  fields :=
    .cons (.required "id" .string) <|
    .cons (.required "project" Project.record.codec) <|
    .cons (.text "displayName") <|
    .cons (.text "fullDisplayName") <|
    .cons (.text "description") <|
    .cons (.text "url") <|
    .cons (.required "number" .int32) <|
    .cons (.required "startTime" .instant) <|
    .cons (.defaulted "timestamp" Codec.instant.option none) <|
    .cons (.defaulted "result" BuildResult.codec.option none) <|
    .cons (.defaulted "executor" Executor.record.codec.option none) <|
    .cons (.defaulted "actions" Report.codec.list []) <|
    .cons (.defaulted "environment" Variables.codec.option none) <|
    .cons (.defaulted "buildVariables" Variables.codec ∅) <|
    .cons (.defaulted "sensitiveBuildVariables" .nameSet ∅) <|
    .cons (.defaulted "environments" Contributor.record.codec.option.list []) <|
    .cons (.defaulted "parent" parent.option none) .nil
  build := fun (id, project, displayName, fullDisplayName, description, url, number, startTime,
      timestamp, result, executor, actions, environment, buildVariables, sensitiveBuildVariables,
      environments, parent, ()) =>
    withParent
      { id, project, displayName, fullDisplayName, description, url, number, startTime, timestamp,
        result, executor, actions, environment, buildVariables, sensitiveBuildVariables,
        environments }
      parent
  parts r :=
    (r.build.id, r.build.project, r.build.displayName, r.build.fullDisplayName, r.build.description,
      r.build.url, r.build.number, r.build.startTime, r.build.timestamp, r.build.result,
      r.build.executor, r.build.actions, r.build.environment, r.build.buildVariables,
      r.build.sensitiveBuildVariables, r.build.environments, r.parent?, ())

def codecUpTo : Nat → Codec Recording
  | 0 => (record ⟨fun _ _ => .error (.fault .malformed), fun _ => .null⟩).codec
  | triggers + 1 => (record (codecUpTo triggers)).codec

/-- Every trigger is a container, so the room for containers is also room enough for triggers. -/
def codec : Codec Recording where
  read frame t := (codecUpTo frame.room).read frame t
  write r := (codecUpTo r.triggers.length).write r

def ofJson (s : String) : Except Error Recording := (codec.decode s).map withDefaults

def toJson (r : Recording) : String := codec.encode r

end Recording

end BuildCapture
