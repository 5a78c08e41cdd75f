import BuildCapture.Proofs.Json.Omission
import BuildCapture.Proofs.Report.Lawful
set_option autoImplicit false

namespace BuildCapture

open Json

namespace Recording

/-- The members that may not be missing, wherever they stand. -/
def required : List String :=
  ["id", "project", "name", "fullName", "number", "startTime", "kind", "sha1", "artifact",
    "groupId", "artifactId", "version"]

/-- What a missing member stands for; none if it may not be missing. A node's name is empty where
that of a build is none. -/
def default? (place name : String) : Option Value :=
  if name ∈ required then none
  else if name = "labelString" ∨ name = "displayName" ∧ place = "node" then some (.string "")
  else if name ∈ ["totalCount", "skipCount", "failCount", "buildNumber"] then some (.int 0)
  else if name ∈ ["snapshot", "optional"] then some (.bool false)
  else if name ∈ ["buildVariables", "vars"] then some (.object [])
  else if name ∈ ["actions", "sensitiveBuildVariables", "environments", "failedTests", "branches",
    "remoteUrls", "deployedArtifacts", "generatedArtifacts", "downstreamJobs", "upstreamBuilds",
    "dependencies", "downstreamJobsByArtifact", "jobs", "imageIDs"] then some (.array [])
  else some .null

def variableMembers : List String := ["environment", "buildVariables", "vars"]

def MayLack (place name : String) (v : Value) : Prop :=
  place ∉ variableMembers ∧ default? place name = some v

def Needs (place name : String) : Prop := place ∉ variableMembers ∧ default? place name = none

end Recording

namespace Json.RecordFields

open Recording (MayLack Needs)

variable {α β σ : Type} {place name : String} {c : Codec α} {rest : RecordFields β σ} {a : α}
  {b : β}

theorem tolerates_required (h : Recording.default? place name = none)
    (tolerates : c.Tolerates MayLack Needs name a) (later : rest.Tolerates MayLack Needs place b) :
    (RecordFields.cons (.required name c) rest).Tolerates MayLack Needs place (a, b) := by
  refine ⟨⟨tolerates, fun lack => ?_, fun _ => rfl⟩, later⟩
  exact nomatch h.symm.trans lack.2

theorem tolerates_defaulted {default : α}
    (h : Recording.default? place name = some (c.write default)) (lawful : c.Lawful)
    (tolerates : c.Tolerates MayLack Needs name a) (later : rest.Tolerates MayLack Needs place b) :
    (RecordFields.cons (.defaulted name c default) rest).Tolerates MayLack Needs place (a, b) := by
  refine ⟨⟨tolerates, fun lack => ?_, fun needed => nomatch h.symm.trans needed.2⟩, later⟩
  exact congrArg some (lawful.write_inj (Option.some.inj (h.symm.trans lack.2)))

theorem tolerates_nullable {o : Option α} (h : Recording.default? place name = some .null)
    (only : c.option.write o = .null → o = none)
    (tolerates : c.option.Tolerates MayLack Needs name o)
    (later : rest.Tolerates MayLack Needs place b) :
    (RecordFields.cons (.defaulted name c.option none) rest).Tolerates MayLack Needs place
      (o, b) := by
  refine ⟨⟨tolerates, fun lack => ?_, fun needed => nomatch h.symm.trans needed.2⟩, later⟩
  exact congrArg some (only (Option.some.inj (lack.2.symm.trans h))).symm

theorem tolerates_text {text : Option String} (h : Recording.default? place name = some .null)
    (later : rest.Tolerates MayLack Needs place b) :
    (RecordFields.cons (.text name) rest).Tolerates MayLack Needs place (text, b) :=
  tolerates_nullable h Codec.string_neverNull.eq_none
    (Codec.text_lawful.tolerates (Codec.string_depth 0).option text) later

theorem tolerates_texts {texts : List String}
    (h : Recording.default? place name = some (.array []))
    (later : rest.Tolerates MayLack Needs place b) :
    (RecordFields.cons (.texts name) rest).Tolerates MayLack Needs place (texts, b) :=
  tolerates_defaulted h Codec.string_lawful.list (Codec.tolerates_texts texts) later

end Json.RecordFields

section
open Recording RecordFields

variable (place : String)

theorem string_tolerates (s : String) : Codec.string.Tolerates MayLack Needs place s :=
  Codec.string_lawful.tolerates (Codec.string_depth 0) s

theorem int32_tolerates (n : Int32) : Codec.int32.Tolerates MayLack Needs place n :=
  Codec.int32_lawful.tolerates (Codec.int32_depth 0) n

theorem bool_tolerates (b : Bool) : Codec.bool.Tolerates MayLack Needs place b :=
  Codec.bool_lawful.tolerates (Codec.bool_depth 0) b

theorem TestCase.record_tolerates (c : TestCase) :
    TestCase.record.fields.Tolerates MayLack Needs place (TestCase.record.parts c) :=
  tolerates_required rfl (string_tolerates _ _) <| tolerates_text rfl trivial

theorem TestReport.record_tolerates (r : TestReport) :
    TestReport.record.fields.Tolerates MayLack Needs place (TestReport.record.parts r) := by
  have cases := Codec.tolerates_list
    (TestCase.record_lawful.codec_tolerates (TestCase.record_tolerates "failedTests")) r.failedTests
  exact tolerates_defaulted rfl Codec.int32_lawful (int32_tolerates _ _) <|
    tolerates_defaulted rfl Codec.int32_lawful (int32_tolerates _ _) <|
    tolerates_defaulted rfl Codec.int32_lawful (int32_tolerates _ _) <|
    tolerates_defaulted rfl TestCase.record_lawful.codec.list cases trivial

theorem Revision.record_tolerates (r : Revision) :
    Revision.record.fields.Tolerates MayLack Needs place (Revision.record.parts r) :=
  tolerates_required rfl (string_tolerates _ _) <| tolerates_texts rfl trivial

theorem GitBuild.record_tolerates (b : GitBuild) :
    GitBuild.record.fields.Tolerates MayLack Needs place (GitBuild.record.parts b) := by
  have never := Record.codec_neverNull Revision.record
  have revision := Codec.tolerates_option
    (Revision.record_lawful.codec_tolerates (Revision.record_tolerates "revision")) never b.revision
  exact tolerates_defaulted rfl Codec.int32_lawful (int32_tolerates _ _) <|
    tolerates_nullable rfl never.eq_none revision trivial

theorem GitReport.record_tolerates (r : GitReport) :
    GitReport.record.fields.Tolerates MayLack Needs place (GitReport.record.parts r) := by
  have never := Record.codec_neverNull GitBuild.record
  have lastBuild := Codec.tolerates_option
    (GitBuild.record_lawful.codec_tolerates (GitBuild.record_tolerates "lastBuild")) never
    r.lastBuild
  exact tolerates_text rfl <|
    tolerates_defaulted rfl Codec.nameSet_lawful (Codec.tolerates_nameSet _) <|
    tolerates_nullable rfl never.eq_none lastBuild trivial

theorem Artifact.record_tolerates (a : Artifact) :
    Artifact.record.fields.Tolerates MayLack Needs place (Artifact.record.parts a) :=
  tolerates_required rfl (string_tolerates _ _) <|
    tolerates_required rfl (string_tolerates _ _) <|
    tolerates_required rfl (string_tolerates _ _) <|
    tolerates_text rfl <| tolerates_text rfl <| tolerates_text rfl <| tolerates_text rfl <|
    tolerates_text rfl <|
    tolerates_defaulted rfl Codec.bool_lawful (bool_tolerates _ _) <| tolerates_text rfl trivial

theorem Artifact.codec_tolerates (a : Artifact) :
    Artifact.record.codec.Tolerates MayLack Needs place a :=
  Artifact.record_lawful.codec_tolerates (Artifact.record_tolerates place) a

theorem Dependency.usage_tolerates (d : Dependency) :
    Dependency.usage.Tolerates MayLack Needs place (d.scope, d.optional, ()) :=
  tolerates_text rfl <| tolerates_defaulted rfl Codec.bool_lawful (bool_tolerates _ _) trivial

/-- The members left out of the one object are left out of the artifact's and of the own ones. -/
theorem Dependency.tolerates_of_fields {optional : String → String → Value → Prop}
    {needed : String → String → Prop} {place : String} {d : Dependency}
    (ofArtifact : Artifact.record.fields.Tolerates optional needed place
      (Artifact.record.parts d.artifact))
    (ofUsage : Dependency.usage.Tolerates optional needed place (d.scope, d.optional, ())) :
    Dependency.codec.Tolerates optional needed place d where
  read frame v shallow omitted := by
    obtain ⟨members, omitted, rfl⟩ := omitted
    have deep : Value.membersDepth (d.artifactMembers ++ d.ownMembers) + 1 ≤ frame.room := shallow
    obtain ⟨inner, entered, room⟩ := Frame.enter_of_lt deep
    rw [Value.membersDepth_append, Nat.max_le] at room
    obtain ⟨artifact, own, artifactOmitted, ownOmitted, rfl⟩ := Value.membersOmit_append omitted
    exact d.read_of_hold entered
      (Nat.le_trans (Value.membersDepth_le_of_omit _ artifactOmitted) room.1)
      (ofArtifact.hold room.1 artifactOmitted) (ofUsage.hold room.2 ownOmitted)
  refuses frame v b shallow omitted read := by
    obtain ⟨members, omitted, rfl⟩ := omitted
    obtain ⟨artifact, own, artifactOmitted, ownOmitted, rfl⟩ := Value.membersOmit_append omitted
    rw [Value.tree] at read
    obtain ⟨inner, entered, read⟩ := bind_eq_ok_iff.1 read
    have room : Value.membersDepth (d.artifactMembers ++ d.ownMembers) ≤ inner.room :=
      Frame.le_of_enter entered shallow
    rw [Value.membersDepth_append, Nat.max_le] at room
    have taken : Value.membersDepth d.artifactMembers ≤ (Frame.mk inner.room true).room := room.1
    have names := artifactOmitted.names fun _ => RecordFields.name_mem_of_mem_write
    have ownNames := ownOmitted.names fun _ => RecordFields.name_mem_of_mem_write
    have artifactRoom := Nat.le_trans (Value.membersDepth_le_of_omit _ artifactOmitted) room.1
    rw [readMembers_usage names artifactRoom, filter_members names ownNames] at read
    obtain ⟨slots, readOwn, read⟩ := bind_eq_ok_iff.1 read
    obtain ⟨closed, -, read⟩ := bind_eq_ok_iff.1 read
    obtain ⟨parts, finished, read⟩ := bind_eq_ok_iff.1 read
    obtain ⟨found, readArtifact, -⟩ := bind_eq_ok_iff.1 read
    exact ⟨artifact ++ own, .append
      ((Artifact.record_lawful.lawfulAt _).membersOmit_of_read ofArtifact taken artifactOmitted
        readArtifact)
      (ofUsage.membersOmit usage_distinct room.2 ownOmitted readOwn finished),
      rfl⟩

theorem Dependency.codec_tolerates (d : Dependency) :
    Dependency.codec.Tolerates MayLack Needs place d :=
  tolerates_of_fields (Artifact.record_tolerates place d.artifact)
    (Dependency.usage_tolerates place d)

theorem ArtifactJobs.record_tolerates (e : ArtifactJobs) :
    ArtifactJobs.record.fields.Tolerates MayLack Needs place (ArtifactJobs.record.parts e) :=
  tolerates_required rfl (Artifact.codec_tolerates _ _) <| tolerates_texts rfl trivial

theorem MavenReport.record_tolerates (r : MavenReport) :
    MavenReport.record.fields.Tolerates MayLack Needs place (MavenReport.record.parts r) := by
  have artifacts {name : String} := Codec.tolerates_list (Artifact.codec_tolerates name)
  have dependencies := Codec.tolerates_list (Dependency.codec_tolerates "dependencies")
  have entries := Codec.tolerates_list (ArtifactJobs.record_lawful.codec_tolerates
    (ArtifactJobs.record_tolerates "downstreamJobsByArtifact"))
  have lawful := Artifact.record_lawful.codec.list
  exact tolerates_defaulted rfl lawful (artifacts _) <|
    tolerates_defaulted rfl lawful (artifacts _) <|
    tolerates_texts rfl <| tolerates_texts rfl <|
    tolerates_defaulted rfl Dependency.codec_lawful.list (dependencies _) <|
    tolerates_defaulted rfl ArtifactJobs.record_lawful.codec.list (entries _) trivial

theorem ImageReport.record_tolerates (r : ImageReport) :
    ImageReport.record.fields.Tolerates MayLack Needs place (ImageReport.record.parts r) :=
  tolerates_defaulted rfl Codec.nameSet_lawful (Codec.tolerates_nameSet _) trivial

end

namespace Report

open Recording (MayLack Needs)

section
variable {place : String} {r : Report} {kind : ReportKind} (known : r.kind? = some kind)
  {frame : Frame} {fields : List (String × Value)}
  (shallow : Value.membersDepth r.fieldMembers ≤ frame.room)
include known shallow

theorem readAs_of_omit (omitted : Value.MembersOmit MayLack place r.fieldMembers fields) :
    readAs (fun record => record.readMembers frame (Value.memberTrees fields) (.ok ())) kind =
      .ok r := by
  cases r with
  | testResults r =>
    cases known
    exact congrArg (Except.map _) ((TestReport.record_lawful.lawfulAt r).readMembers_of_omit
      (TestReport.record_tolerates place r) shallow omitted)
  | sourceControl r =>
    cases known
    exact congrArg (Except.map _) ((GitReport.record_lawful.lawfulAt r).readMembers_of_omit
      (GitReport.record_tolerates place r) shallow omitted)
  | dependency r =>
    cases known
    exact congrArg (Except.map _) ((MavenReport.record_lawful.lawfulAt r).readMembers_of_omit
      (MavenReport.record_tolerates place r) shallow omitted)
  | imageFingerprint r =>
    cases known
    exact congrArg (Except.map _) ((ImageReport.record_lawful.lawfulAt r).readMembers_of_omit
      (ImageReport.record_tolerates place r) shallow omitted)
  | unknown => cases known

theorem membersOmit_of_readAs {found : Report}
    (omitted : Value.MembersOmit (Named MayLack Needs) place r.fieldMembers fields)
    (read : readAs (fun record => record.readMembers frame (Value.memberTrees fields) (.ok ()))
      kind = .ok found) : Value.MembersOmit MayLack place r.fieldMembers fields := by
  cases r with
  | testResults r =>
    cases known
    obtain ⟨a, read, -⟩ := map_eq_ok_iff.1 read
    exact (TestReport.record_lawful.lawfulAt r).membersOmit_of_read
      (TestReport.record_tolerates place r) shallow omitted read
  | sourceControl r =>
    cases known
    obtain ⟨a, read, -⟩ := map_eq_ok_iff.1 read
    exact (GitReport.record_lawful.lawfulAt r).membersOmit_of_read
      (GitReport.record_tolerates place r) shallow omitted read
  | dependency r =>
    cases known
    obtain ⟨a, read, -⟩ := map_eq_ok_iff.1 read
    exact (MavenReport.record_lawful.lawfulAt r).membersOmit_of_read
      (MavenReport.record_tolerates place r) shallow omitted read
  | imageFingerprint r =>
    cases known
    obtain ⟨a, read, -⟩ := map_eq_ok_iff.1 read
    exact (ImageReport.record_lawful.lawfulAt r).membersOmit_of_read
      (ImageReport.record_tolerates place r) shallow omitted read
  | unknown => cases known

end

theorem name_ne_kind_of_omit {optional : String → String → Value → Prop} {place : String}
    {r : Report} {fields : List (String × Value)}
    (omitted : Value.MembersOmit optional place r.fieldMembers fields) :
    ∀ m ∈ fields, m.1 ≠ "kind" :=
  Value.MembersOmit.names (p := fun name => name ≠ "kind") omitted fun _ => name_ne_kind

theorem codec_tolerates (place : String) (r : Report) :
    codec.Tolerates MayLack Needs place r where
  read frame v shallow omitted := by
    obtain ⟨members, omitted, rfl⟩ := omitted
    have deep : Value.membersDepth r.members + 1 ≤ frame.room := shallow
    obtain ⟨inner, entered, room⟩ := Frame.enter_of_lt deep
    rw [Value.membersDepth, Nat.max_le] at room
    -- The kind may not be missing, so it is still the first member.
    obtain ⟨v, fields, kind, others, rfl⟩ := omitted.resolve_left fun left => nomatch left.1.2
    obtain rfl : v = .string r.kindName := kind
    rw [Value.tree]
    simp only [codec, entered, bind, Except.bind]
    exact r.readMembers_of_fields (name_ne_kind_of_omit others)
      (Nat.le_trans (Value.membersDepth_le_of_omit _ others) room.2)
      fun kind known => readAs_of_omit known room.2 others
  refuses frame v b shallow omitted read := by
    obtain ⟨members, omitted, rfl⟩ := omitted
    rw [Value.tree] at read
    obtain ⟨inner, entered, read⟩ := bind_eq_ok_iff.1 read
    have room : Value.membersDepth r.members ≤ inner.room := Frame.le_of_enter entered shallow
    rw [Value.membersDepth, Nat.max_le] at room
    have fieldsRoom {fields : List (String × Value)}
        (others : Value.MembersOmit (Named MayLack Needs) place r.fieldMembers fields) :
        Value.membersDepth fields ≤ inner.room :=
      Nat.le_trans (Value.membersDepth_le_of_omit _ others) room.2
    rcases omitted with ⟨-, others⟩ | ⟨v, fields, kind, others, rfl⟩
    case inl =>
      have none := readKindMember_of_ne (name_ne_kind_of_omit others) (fieldsRoom others) none
      rw [readMembers, none] at read
      cases read
    case inr =>
      obtain rfl : v = .string r.kindName := kind
      refine ⟨_, .inr ⟨_, fields, rfl, ?_, rfl⟩, rfl⟩
      rw [readMembers, r.readKindMember_members (name_ne_kind_of_omit others) (fieldsRoom others),
        r.filter_members (name_ne_kind_of_omit others)] at read
      cases known : r.kind? with
      | none =>
        rw [eq_unknown_of_kind? known] at others ⊢
        exact others
      | some kind =>
        rw [known] at read
        have taken : Value.membersDepth r.fieldMembers ≤ (Frame.mk inner.room true).room := room.2
        exact membersOmit_of_readAs known taken others read

end Report

end BuildCapture
