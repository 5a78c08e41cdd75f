import BuildCapture.Json.Record
import BuildCapture.Report.Basic
set_option autoImplicit false

/-!
The JSON form of reports. A report is an object whose member `kind` tells which one it is; the other
members are taken in first, wherever `kind` stands, and read by the kind's fields then.
-/

namespace BuildCapture

open Json

def ReportKind.codec : Codec ReportKind := .keyword ReportKind.named ReportKind.name

def TestCase.record : Record TestCase where
  name := "CaseResult"
  fields := .cons (.required "fullName" .string) <| .cons (.text "errorDetails") .nil
  build := fun (fullName, errorDetails, ()) => ⟨fullName, errorDetails⟩
  parts c := (c.fullName, c.errorDetails, ())

def TestReport.record : Record TestReport where
  name := "TestResultAction"
  fields :=
    .cons (.defaulted "totalCount" .int32 0) <|
    .cons (.defaulted "skipCount" .int32 0) <|
    .cons (.defaulted "failCount" .int32 0) <|
    .cons (.defaulted "failedTests" TestCase.record.codec.list []) .nil
  build := fun (total, skip, fail, failedTests, ()) => ⟨total, skip, fail, failedTests⟩
  parts r := (r.totalCount, r.skipCount, r.failCount, r.failedTests, ())

def Revision.record : Record Revision where
  name := "Revision"
  fields := .cons (.required "sha1" .string) <| .cons (.texts "branches") .nil
  build := fun (sha1, branches, ()) => ⟨sha1, branches⟩
  parts r := (r.sha1, r.branches, ())

def GitBuild.record : Record GitBuild where
  name := "GitBuild"
  fields :=
    .cons (.defaulted "buildNumber" .int32 0) <|
    .cons (.defaulted "revision" Revision.record.codec.option none) .nil
  build := fun (buildNumber, revision, ()) => ⟨buildNumber, revision⟩
  parts b := (b.buildNumber, b.revision, ())

def GitReport.record : Record GitReport where
  name := "GitBuildData"
  fields :=
    .cons (.text "scmName") <|
    .cons (.defaulted "remoteUrls" .nameSet ∅) <|
    .cons (.defaulted "lastBuild" GitBuild.record.codec.option none) .nil
  build := fun (scmName, remoteUrls, lastBuild, ()) => ⟨scmName, remoteUrls, lastBuild⟩
  parts r := (r.scmName, r.remoteUrls, r.lastBuild, ())

def Artifact.record : Record Artifact where
  name := "MavenArtifact"
  fields :=
    .cons (.required "groupId" .string) <|
    .cons (.required "artifactId" .string) <|
    .cons (.required "version" .string) <|
    .cons (.text "baseVersion") <|
    .cons (.text "type") <|
    .cons (.text "classifier") <|
    .cons (.text "extension") <|
    .cons (.text "file") <|
    .cons (.defaulted "snapshot" .bool false) <|
    .cons (.text "repositoryUrl") .nil
  build := fun (groupId, artifactId, version, baseVersion, type, classifier, extension, file,
      snapshot, repositoryUrl, ()) =>
    ⟨groupId, artifactId, version, baseVersion, type, classifier, extension, file, snapshot,
      repositoryUrl⟩
  parts a := (a.groupId, a.artifactId, a.version, a.baseVersion, a.type, a.classifier, a.extension,
    a.file, a.snapshot, a.repositoryUrl, ())

def Dependency.usage :
    RecordFields (Option String × Bool × Unit) (Option (Option String) × Option Bool × Unit) :=
  .cons (.text "scope") <| .cons (.defaulted "optional" .bool false) .nil

/-- One object holds the artifact's fields and the dependency's own. The own ones are read on the
way; all others are taken in, and read as the artifact's at the end. -/
def Dependency.codec : Codec Dependency where
  read frame t := do
    match t with
    | .object members close =>
      let inner ← frame.enter
      let slots ← usage.readMembers inner (Tree.take inner.room) usage.empty members
      ofFault close
      let (scope, optional, ()) ← usage.finish slots
      let others := members.filter fun m => !m.1.isOneOf usage.names
      let artifact ← Artifact.record.readMembers { inner with taken := true } others (.ok ())
      return ⟨artifact, scope, optional⟩
    | t => Codec.wrongType (.record "MavenDependency") t
  write d := .object (Artifact.record.members d.artifact ++ usage.write (d.scope, d.optional, ()))

def ArtifactJobs.record : Record ArtifactJobs where
  name := "ArtifactJobs"
  fields := .cons (.required "artifact" Artifact.record.codec) <| .cons (.texts "jobs") .nil
  build := fun (artifact, jobs, ()) => ⟨artifact, jobs⟩
  parts e := (e.artifact, e.jobs, ())

def MavenReport.record : Record MavenReport where
  name := "MavenReport"
  fields :=
    .cons (.defaulted "deployedArtifacts" Artifact.record.codec.list []) <|
    .cons (.defaulted "generatedArtifacts" Artifact.record.codec.list []) <|
    .cons (.texts "downstreamJobs") <|
    .cons (.texts "upstreamBuilds") <|
    .cons (.defaulted "dependencies" Dependency.codec.list []) <|
    .cons (.defaulted "downstreamJobsByArtifact" ArtifactJobs.record.codec.list []) .nil
  build := fun (deployed, generated, consumers, producers, dependencies, byArtifact, ()) =>
    ⟨deployed, generated, consumers, producers, dependencies, byArtifact⟩
  parts r := (r.deployedArtifacts, r.generatedArtifacts, r.consumerJobs, r.producerBuilds,
    r.dependencies, r.consumerJobsByArtifact, ())

def ImageReport.record : Record ImageReport where
  name := "DockerFingerprintAction"
  fields := .cons (.defaulted "imageIDs" .nameSet ∅) .nil
  build := fun (imageIds, ()) => ⟨imageIds⟩
  parts r := (r.imageIds, ())

namespace Report

def readKind (t : Tree) : Except Error (Option ReportKind) := do
  match ← ofFault t.found with
  | .string name => .ok (ReportKind.named.lookup name)
  | found => refuse (.wrongType found .keyword)

def readKindMember (room : Nat) :
    Option (Option ReportKind) → List (Key × Tree) → Except Error (Option (Option ReportKind))
  | kind, [] => .ok kind
  | kind, (key, t) :: rest => do
    if (← ofFault key.read) = "kind" then
      if kind.isSome then refuse (.duplicateField "kind")
      else readKindMember room (some (← readKind t)) rest
    else do
      ofFault (t.take room)
      readKindMember room kind rest

def readAs (fields : {α : Type} → Record α → Except Error α) : ReportKind → Except Error Report
  | .testResults => (fields TestReport.record).map .testResults
  | .sourceControl => (fields GitReport.record).map .sourceControl
  | .dependency => (fields MavenReport.record).map .dependency
  | .imageFingerprint => (fields ImageReport.record).map .imageFingerprint

/-- Any members make a report of an unknown kind. -/
def readMembers (frame : Frame) (members : List (Key × Tree)) (close : Close) :
    Except Error Report := do
  let kind ← readKindMember frame.room none members
  ofFault close
  match kind with
  | none => refuse (.missingField "kind")
  | some none => return .unknown
  | some (some kind) =>
    let others := members.filter fun m => !m.1.isOneOf ["kind"]
    readAs (fun r => r.readMembers { frame with taken := true } others (.ok ())) kind

/-- The first item is the kind; a report of an unknown kind has no other. -/
def readItems (frame : Frame) (items : List Tree) (close : Close) : Except Error Report := do
  match items with
  | [] =>
    ofFault close
    refuse (.missingField "kind")
  | t :: rest =>
    let kind ← readKind t
    ofFault (Tree.takeItems frame.room rest)
    ofFault close
    match kind with
    | none =>
      if rest.isEmpty then return .unknown
      else refuse (.wrongLength rest.length (.elements 0))
    | some kind => readAs (fun r => r.readItems { frame with taken := true } rest (.ok ())) kind

def fieldMembers : Report → List (String × Value)
  | .testResults r => TestReport.record.members r
  | .sourceControl r => GitReport.record.members r
  | .dependency r => MavenReport.record.members r
  | .imageFingerprint r => ImageReport.record.members r
  | .unknown => []

def kindName (r : Report) : String := (r.kind?.map ReportKind.name).getD "unknown"

def codec : Codec Report where
  read frame t := do
    match t with
    | .object members close => readMembers (← frame.enter) members close
    | .array items close => readItems (← frame.enter) items close
    | t => Codec.wrongType (.tagged "Action") t
  write r := .object (("kind", .string r.kindName) :: r.fieldMembers)

end Report

end BuildCapture
