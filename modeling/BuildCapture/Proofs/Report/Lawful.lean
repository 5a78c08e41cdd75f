import BuildCapture.Proofs.Json.Record
import BuildCapture.Report.Codec
set_option autoImplicit false

/-!
Reports are written and read back. Two of their parts take more than the record lemmas: a dependency
shares its object with its artifact, so the reader has to tell the fields of the two apart by their
names; and a report names its kind first, which decides how its other members are read.
-/

namespace BuildCapture

open Json

theorem Artifact.record_lawful : Artifact.record.Lawful where
  distinct := by decide
  fields := by
    simp [Artifact.record, Codec.string_lawful, Codec.bool_lawful, Codec.text_lawful]
  build_parts _ := rfl

theorem Artifact.record_depth (n : Nat) : Artifact.record.codec.DepthAtMost (n + 1) :=
  Record.codec_depth (by simp [Artifact.record])

namespace Dependency

theorem usage_lawful : usage.Lawful := by
  simp [usage, Codec.bool_lawful, Codec.text_lawful]

theorem usage_distinct : usage.names.Nodup := by decide

theorem names_apart : ∀ name ∈ Artifact.record.fields.names, name ∉ usage.names := by decide

/-- The members that are the dependency's own. -/
abbrev ownMembers (d : Dependency) : List (String × Value) :=
  usage.write (d.scope, d.optional, ())

abbrev artifactMembers (d : Dependency) : List (String × Value) :=
  Artifact.record.members d.artifact

section
variable {inner : Frame} {artifact own : List (String × Value)}

theorem readMembers_usage (names : ∀ m ∈ artifact, m.1 ∈ Artifact.record.fields.names)
    (shallow : Value.membersDepth artifact ≤ inner.room) :
    usage.readMembers inner (Tree.take inner.room) usage.empty
        (Value.memberTrees (artifact ++ own)) =
      usage.readMembers inner (Tree.take inner.room) usage.empty (Value.memberTrees own) := by
  have foreign : ∀ m ∈ artifact,
      m.1 ∉ usage.names ∧ Tree.take inner.room m.2.tree = .ok () := fun m hm =>
    ⟨names_apart m.1 (names m hm),
      Value.take_tree m.2 (Value.membersDepth_le_iff.1 shallow m hm)⟩
  rw [Value.memberTrees_append, RecordFields.readMembers_append_of_not_mem inner _ foreign]

theorem filter_members (names : ∀ m ∈ artifact, m.1 ∈ Artifact.record.fields.names)
    (ownNames : ∀ m ∈ own, m.1 ∈ usage.names) :
    (Value.memberTrees (artifact ++ own)).filter (fun m => !m.1.isOneOf usage.names) =
      Value.memberTrees artifact := by
  rw [Value.memberTrees_append, List.filter_append,
    Value.filter_memberTrees_of_not_mem fun m hm => names_apart m.1 (names m hm),
    Value.filter_memberTrees_of_mem ownNames, List.append_nil]

theorem read_of_hold (d : Dependency) {frame : Frame} (entered : frame.enter = .ok inner)
    (shallow : Value.membersDepth artifact ≤ inner.room)
    (artifactHeld : Artifact.record.fields.Hold { inner with taken := true }
      (Artifact.record.parts d.artifact) artifact)
    (held : usage.Hold inner (d.scope, d.optional, ()) own) :
    codec.read frame (.object (Value.memberTrees (artifact ++ own)) (.ok ())) = .ok d := by
  obtain ⟨slots, read, finished⟩ :=
    RecordFields.readMembers_of_hold inner (Tree.take inner.room) usage_distinct held
  have artifactRead : Artifact.record.readMembers { inner with taken := true }
      (Value.memberTrees artifact) (.ok ()) = .ok d.artifact :=
    Record.readMembers_of_hold Artifact.record_lawful.distinct
      (Artifact.record_lawful.build_parts _) artifactHeld
  simp only [codec, entered, bind, Except.bind, readMembers_usage artifactHeld.names shallow, read,
    finished, filter_members artifactHeld.names held.names, artifactRead]
  rfl

end

theorem codec_lawful : codec.Lawful where
  read_write d frame shallow := by
    have deep : Value.membersDepth (d.artifactMembers ++ d.ownMembers) + 1 ≤ frame.room := shallow
    obtain ⟨inner, entered, room⟩ := Frame.enter_of_lt deep
    rw [Value.membersDepth_append, Nat.max_le] at room
    exact d.read_of_hold entered room.1 (Artifact.record_lawful.fields.hold_write _ _ room.1)
      (usage_lawful.hold_write _ _ room.2)
  fits d := by
    show Value.MembersFit (d.artifactMembers ++ d.ownMembers)
    rw [Value.membersFit_append]
    exact ⟨Artifact.record_lawful.fields.fits _, usage_lawful.fits _⟩

theorem codec_depth (n : Nat) : codec.DepthAtMost (n + 1) := fun d => by
  show Value.membersDepth (d.artifactMembers ++ d.ownMembers) + 1 ≤ n + 1
  have artifact : Artifact.record.fields.DepthAtMost n := by simp [Artifact.record]
  have own : usage.DepthAtMost n := by simp [usage]
  rw [Value.membersDepth_append, Nat.add_le_add_iff_right, Nat.max_le]
  exact ⟨artifact.write _, own.write _⟩

end Dependency

theorem TestCase.record_lawful : TestCase.record.Lawful where
  distinct := by decide
  fields := by simp [TestCase.record, Codec.string_lawful, Codec.text_lawful]
  build_parts _ := rfl

theorem TestReport.record_lawful : TestReport.record.Lawful where
  distinct := by decide
  fields := by
    simp [TestReport.record, Codec.int32_lawful, TestCase.record_lawful.codec.list]
  build_parts _ := rfl

theorem Revision.record_lawful : Revision.record.Lawful where
  distinct := by decide
  fields := by simp [Revision.record, Codec.string_lawful, Codec.string_lawful.list]
  build_parts _ := rfl

theorem GitBuild.record_lawful : GitBuild.record.Lawful where
  distinct := by decide
  fields := by
    have revision := Revision.record_lawful.codec.option (Record.codec_neverNull _)
    simp [GitBuild.record, Codec.int32_lawful, revision]
  build_parts _ := rfl

theorem GitReport.record_lawful : GitReport.record.Lawful where
  distinct := by decide
  fields := by
    have lastBuild := GitBuild.record_lawful.codec.option (Record.codec_neverNull _)
    simp [GitReport.record, Codec.text_lawful, Codec.nameSet_lawful, lastBuild]
  build_parts _ := rfl

theorem ArtifactJobs.record_lawful : ArtifactJobs.record.Lawful where
  distinct := by decide
  fields := by
    simp [ArtifactJobs.record, Artifact.record_lawful.codec, Codec.string_lawful.list]
  build_parts _ := rfl

theorem MavenReport.record_lawful : MavenReport.record.Lawful where
  distinct := by decide
  fields := by
    simp [MavenReport.record, Artifact.record_lawful.codec.list, Codec.string_lawful.list,
      Dependency.codec_lawful.list, ArtifactJobs.record_lawful.codec.list]
  build_parts _ := rfl

theorem ImageReport.record_lawful : ImageReport.record.Lawful where
  distinct := by decide
  fields := by simp [ImageReport.record, Codec.nameSet_lawful]
  build_parts _ := rfl

namespace Report

theorem lookup_kindName (r : Report) : ReportKind.named.lookup r.kindName = r.kind? := by
  cases r <;> rfl

/-- A report of a known kind holds a record of that kind, none of whose fields is called `kind`. -/
theorem exists_record {r : Report} {kind : ReportKind} (known : r.kind? = some kind) :
    ∃ (α : Type) (record : Record α) (a : α) (report : α → Report), record.Lawful ∧
      "kind" ∉ record.fields.names ∧ r.fieldMembers = record.members a ∧ report a = r ∧
      ∀ fields : {β : Type} → Record β → Except Error β,
        readAs fields kind = (fields record).map report := by
  cases r with
  | testResults a =>
    cases known
    exact ⟨_, TestReport.record, a, .testResults, TestReport.record_lawful, by decide, rfl, rfl,
      fun _ => rfl⟩
  | sourceControl a =>
    cases known
    exact ⟨_, GitReport.record, a, .sourceControl, GitReport.record_lawful, by decide, rfl, rfl,
      fun _ => rfl⟩
  | dependency a =>
    cases known
    exact ⟨_, MavenReport.record, a, .dependency, MavenReport.record_lawful, by decide, rfl, rfl,
      fun _ => rfl⟩
  | imageFingerprint a =>
    cases known
    exact ⟨_, ImageReport.record, a, .imageFingerprint, ImageReport.record_lawful, by decide, rfl,
      rfl, fun _ => rfl⟩
  | unknown => cases known

theorem eq_unknown_of_kind? {r : Report} (unknown : r.kind? = none) : r = .unknown := by
  cases r with
  | unknown => rfl
  | _ => cases unknown

theorem name_ne_kind {r : Report} {m : String × Value} (h : m ∈ r.fieldMembers) : m.1 ≠ "kind" := by
  cases known : r.kind? with
  | none =>
    rw [eq_unknown_of_kind? known] at h
    cases h
  | some kind =>
    obtain ⟨α, record, a, report, -, other, members, -⟩ := exists_record known
    rintro same
    rw [members] at h
    exact other (same ▸ RecordFields.name_mem_of_mem_write h)

theorem readKindMember_append {room : Nat} {members : List (Key × Tree)}
    (passed : ∀ m ∈ members, (∃ name, m.1.read = .ok name ∧ name ≠ "kind") ∧
      m.2.take room = .ok ()) (kind : Option (Option ReportKind)) (rest : List (Key × Tree)) :
    readKindMember room kind (members ++ rest) = readKindMember room kind rest := by
  induction members with
  | nil => rfl
  | cons m members ih =>
    obtain ⟨⟨⟨name, read, ne⟩, taken⟩, later⟩ := List.forall_mem_cons.1 passed
    rw [List.cons_append, readKindMember]
    simp only [read, Codec.ofFault_ok, bind, Except.bind, if_neg ne, taken]
    exact ih later

theorem readKindMember_of_ne {room : Nat} {members : List (String × Value)}
    (ne : ∀ m ∈ members, m.1 ≠ "kind") (shallow : Value.membersDepth members ≤ room)
    (kind : Option (Option ReportKind)) :
    readKindMember room kind (Value.memberTrees members) = .ok kind := by
  have passed : ∀ m ∈ Value.memberTrees members, (∃ name, m.1.read = .ok name ∧ name ≠ "kind") ∧
      m.2.take room = .ok () := by
    rw [Value.memberTrees_eq_map]
    intro m hm
    obtain ⟨member, mem, rfl⟩ := List.mem_map.1 hm
    exact ⟨⟨member.1, rfl, ne member mem⟩,
      Value.take_tree member.2 (Value.membersDepth_le_iff.1 shallow member mem)⟩
  have read := readKindMember_append passed kind []
  rwa [List.append_nil] at read

abbrev members (r : Report) : List (String × Value) :=
  ("kind", .string r.kindName) :: r.fieldMembers

section
variable (r : Report) {fields : List (String × Value)}

theorem readKindMember_members (ne : ∀ m ∈ fields, m.1 ≠ "kind") {room : Nat}
    (shallow : Value.membersDepth fields ≤ room) :
    readKindMember room none (Value.memberTrees (("kind", .string r.kindName) :: fields)) =
      .ok (some r.kind?) := by
  have named : readKind (Value.tree (.string r.kindName)) = .ok r.kind? := by
    rw [← lookup_kindName]
    rfl
  rw [Value.memberTrees, readKindMember]
  simp only [Key.ofString, Codec.ofFault_ok, bind, Except.bind, if_true, named]
  exact readKindMember_of_ne ne shallow (some r.kind?)

theorem filter_members (ne : ∀ m ∈ fields, m.1 ≠ "kind") :
    (Value.memberTrees (("kind", .string r.kindName) :: fields)).filter
      (fun m => !m.1.isOneOf ["kind"]) = Value.memberTrees fields := by
  have others : ∀ m ∈ fields, m.1 ∉ ["kind"] := fun m hm same =>
    ne m hm (List.mem_singleton.1 same)
  have first : Key.isOneOf (.ofString "kind") ["kind"] = true := by decide
  rw [Value.memberTrees, List.filter_cons_of_neg (by simp [first])]
  exact Value.filter_memberTrees_of_not_mem others

theorem readMembers_of_fields (ne : ∀ m ∈ fields, m.1 ≠ "kind") {frame : Frame}
    (shallow : Value.membersDepth fields ≤ frame.room)
    (read : ∀ kind, r.kind? = some kind → readAs (fun record =>
      record.readMembers { frame with taken := true } (Value.memberTrees fields) (.ok ())) kind =
        .ok r) :
    readMembers frame (Value.memberTrees (("kind", .string r.kindName) :: fields)) (.ok ()) =
      .ok r := by
  simp only [readMembers, r.readKindMember_members ne shallow, Codec.ofFault_ok, bind, Except.bind,
    r.filter_members ne]
  cases known : r.kind? with
  | none => rw [eq_unknown_of_kind? known]; rfl
  | some kind => exact read kind known

end

theorem codec_lawful : codec.Lawful where
  read_write r frame shallow := by
    have deep : Value.membersDepth r.members + 1 ≤ frame.room := shallow
    obtain ⟨inner, entered, room⟩ := Frame.enter_of_lt deep
    rw [Value.membersDepth, Nat.max_le] at room
    show codec.read frame (.object (Value.memberTrees r.members) (.ok ())) = _
    simp only [codec, entered, bind, Except.bind]
    refine r.readMembers_of_fields (fun m => name_ne_kind) room.2 fun kind known => ?_
    obtain ⟨α, record, a, report, lawful, -, members, rfl, reads⟩ := exists_record known
    rw [reads, members, lawful.readMembers_members (members ▸ room.2)]
    rfl
  fits r := by
    refine ⟨trivial, ?_⟩
    show Value.MembersFit r.fieldMembers
    cases known : r.kind? with
    | none => rw [eq_unknown_of_kind? known]; trivial
    | some kind =>
      obtain ⟨α, record, a, report, lawful, -, members, -⟩ := exists_record known
      exact members ▸ lawful.fields.fits (record.parts a)

end Report

end BuildCapture
