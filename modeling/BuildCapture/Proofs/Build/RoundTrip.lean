import BuildCapture.Build.Codec
import BuildCapture.Proofs.Report.Lawful
import BuildCapture.Proofs.Time.RoundTrip
set_option autoImplicit false

/-!
The document of a recorded build is read back as that build with its defaults filled in, together
with its chain of triggers. A build is written by the codec of exactly as many triggers as it has,
and read by the codec of as many as there is room for. Both write the same
(`Recording.codecUpTo_write`), so it is enough that each codec is lawful at the builds that do not
have more triggers than it is made for (`Recording.codecUpTo_lawfulAt`).
-/

namespace BuildCapture

open Json

namespace Json.Codec

theorem instant_read_string (frame : Frame) (s : String) :
    instant.read frame (Value.tree (.string s)) =
      (Rfc3339.read s).mapError (.mismatch ∘ .dateTime) := rfl

theorem instant_lawful : instant.Lawful where
  read_write t frame _ := by
    show instant.read frame (Value.tree (.string (Rfc3339.write t))) = _
    rw [instant_read_string, Rfc3339.read_write]
    rfl
  fits _ := trivial

theorem instant_neverNull : instant.NeverNull := fun _ => nofun

end Json.Codec

theorem BuildResult.codec_lawful : BuildResult.codec.Lawful :=
  Codec.keyword_lawful fun result => by cases result <;> decide

theorem Project.record_lawful : Project.record.Lawful where
  distinct := by decide
  fields := by simp [Project.record, Codec.string_lawful]
  build_parts _ := rfl

theorem Node.record_lawful : Node.record.Lawful where
  distinct := by decide
  fields := by simp [Node.record, Codec.string_lawful]
  build_parts _ := rfl

theorem Executor.record_lawful : Executor.record.Lawful where
  distinct := by decide
  fields := by
    have node := Node.record_lawful.codec.option (Record.codec_neverNull _)
    simp [Executor.record, node]
  build_parts _ := rfl

theorem Variables.codec_lawful : Variables.codec.Lawful := Codec.string_lawful.nameMap

theorem Variables.codec_neverNull : Variables.codec.NeverNull := fun _ => nofun

theorem Contributor.record_lawful : Contributor.record.Lawful where
  distinct := by decide
  fields := by simp [Contributor.record, Variables.codec_lawful]
  build_parts _ := rfl

namespace Recording

@[simp] theorem withParent_parent? (r : Recording) : withParent r.build r.parent? = r := by
  obtain ⟨build, triggers⟩ := r
  cases triggers with
  | nil => rfl
  | cons b rest => rfl

theorem record_lawfulAt {parent : Codec Recording} {r : Recording}
    (h : parent.option.LawfulAt r.parent?) : (record parent).LawfulAt r where
  distinct := by
    simp [record, RecordFields.names, RecordField.required, RecordField.defaulted, RecordField.text]
  fields := by
    have timestamp := Codec.instant_lawful.option Codec.instant_neverNull
    have result := BuildResult.codec_lawful.option (Codec.keyword_neverNull _ _)
    have executor := Executor.record_lawful.codec.option (Record.codec_neverNull _)
    have environment := Variables.codec_lawful.option Variables.codec_neverNull
    have contributors := (Contributor.record_lawful.codec.option (Record.codec_neverNull _)).list
    simp [record, Codec.string_lawful.lawfulAt, Project.record_lawful.codec.lawfulAt,
      Codec.text_lawful.lawfulAt, Codec.int32_lawful.lawfulAt, Codec.instant_lawful.lawfulAt,
      timestamp.lawfulAt, result.lawfulAt, executor.lawfulAt, Report.codec_lawful.list.lawfulAt,
      environment.lawfulAt, Variables.codec_lawful.lawfulAt, Codec.nameSet_lawful.lawfulAt,
      contributors.lawfulAt, h]
  build_parts := r.withParent_parent?

theorem exists_members (r : Recording) :
    ∃ own, ∀ parent : Codec Recording,
      (record parent).members r = own ++ [("parent", parent.option.write r.parent?)] :=
  ⟨((record ⟨fun _ _ => .error (.fault .malformed), fun _ => .null⟩).members r).dropLast,
    fun _ => rfl⟩

theorem codec_write_congr {parent other : Codec Recording} {r : Recording}
    (h : parent.option.write r.parent? = other.option.write r.parent?) :
    (record parent).codec.write r = (record other).codec.write r := by
  obtain ⟨own, members⟩ := r.exists_members
  show Value.object ((record parent).members r) = .object ((record other).members r)
  rw [members, members, h]

theorem codecUpTo_neverNull (n : Nat) : (codecUpTo n).NeverNull := by
  cases n with
  | zero => exact Record.codec_neverNull _
  | succ n => exact Record.codec_neverNull _

theorem codecUpTo_write {n : Nat} {b : Build} {triggers : List Build} (h : triggers.length ≤ n) :
    (codecUpTo n).write ⟨b, triggers⟩ = codec.write ⟨b, triggers⟩ := by
  induction triggers generalizing b n with
  | nil =>
    cases n with
    | zero => rfl
    | succ n => exact codec_write_congr rfl
  | cons trigger triggers ih =>
    cases n with
    | zero => cases h
    | succ n => exact codec_write_congr (ih (Nat.le_of_succ_le_succ h))

theorem codecUpTo_lawfulAt {n : Nat} {b : Build} {triggers : List Build} (h : triggers.length ≤ n) :
    (codecUpTo n).LawfulAt ⟨b, triggers⟩ := by
  induction triggers generalizing b n with
  | nil =>
    cases n with
    | zero => exact (record_lawfulAt (Codec.lawfulAt_none _)).codec
    | succ n => exact (record_lawfulAt (Codec.lawfulAt_none _)).codec
  | cons trigger triggers ih =>
    cases n with
    | zero => cases h
    | succ n =>
      have parent : (codecUpTo n).LawfulAt ⟨trigger, triggers⟩ := ih (Nat.le_of_succ_le_succ h)
      exact (record_lawfulAt (parent.some (codecUpTo_neverNull n))).codec

theorem length_lt_depth (b : Build) (triggers : List Build) :
    triggers.length < (codec.write ⟨b, triggers⟩).depth := by
  induction triggers generalizing b with
  | nil => exact Nat.succ_pos _
  | cons trigger triggers ih =>
    obtain ⟨own, members⟩ := exists_members ⟨b, trigger :: triggers⟩
    have nested : (codec.write ⟨trigger, triggers⟩).depth ≤
        Value.membersDepth ((record (codecUpTo triggers.length)).members
          ⟨b, trigger :: triggers⟩) := by
      rw [members, Value.membersDepth_append]
      exact Nat.le_trans (Nat.le_max_left _ _) (Nat.le_max_right _ _)
    exact Nat.succ_lt_succ (Nat.lt_of_lt_of_le (ih trigger) nested)

theorem codec_lawful : codec.Lawful where
  read_write r frame shallow := by
    have few : r.triggers.length ≤ frame.room :=
      Nat.le_of_lt (Nat.lt_of_lt_of_le (length_lt_depth r.build r.triggers) shallow)
    have same : (codecUpTo frame.room).write r = codec.write r := codecUpTo_write few
    show (codecUpTo frame.room).read frame (codec.write r).tree = _
    rw [← same] at shallow ⊢
    exact (codecUpTo_lawfulAt few).read_write frame shallow
  fits _ := (codecUpTo_lawfulAt (Nat.le_refl _)).fits

@[simp] theorem withDefaults_withDefaults (r : Recording) :
    r.withDefaults.withDefaults = r.withDefaults := by
  simp [withDefaults, Build.withDefaults]

theorem withDefaults_of_ofJson {s : String} {r : Recording} (h : ofJson s = .ok r) :
    r.withDefaults = r := by
  rw [ofJson] at h
  cases decoded : codec.decode s with
  | error e =>
    rw [decoded] at h
    cases h
  | ok found =>
    rw [decoded] at h
    cases h
    exact found.withDefaults_withDefaults

/-- A build is read back with its defaults filled in, and unchanged if it has been read before. -/
theorem ofJson_toJson_withDefaults (r : Recording) (shallow : (codec.write r).depth < 128) :
    ofJson r.toJson = .ok r.withDefaults ∧ ∀ s, ofJson s = .ok r → ofJson r.toJson = .ok r := by
  have read : ofJson r.toJson = .ok r.withDefaults := by
    rw [ofJson, toJson, Codec.decode_encode codec_lawful r (Nat.le_of_lt_succ shallow)]
    rfl
  refine ⟨read, fun s before => ?_⟩
  rw [read, withDefaults_of_ofJson before]

/-- A build that started in a leap second, triggered by one of the year 12000. -/
def promoted : Recording where
  build := {
    id := "12"
    project := ⟨"promote", "ci/promote"⟩
    number := 12
    startTime := ⟨1483228799, 1500000000, by decide, by decide, by decide⟩
    result := some .unstable
    actions := [.testResults ⟨3, 0, 1, [⟨"suite.case", none⟩]⟩, .unknown, .imageFingerprint ⟨∅⟩]
    environment := some (.ofList [("TARGET", "\"a\\b\"")])
    environments := [none, some ⟨∅⟩] }
  triggers := [{
    id := "7"
    project := ⟨"nightly", "ci/nightly"⟩
    number := -7
    startTime := ⟨316517328000, 1, by decide, by decide, by decide⟩ }]

theorem promoted_read_back :
    ofJson promoted.toJson = .ok promoted.withDefaults ∧
    ofJson promoted.withDefaults.toJson = .ok promoted.withDefaults := by
  have shallow : (codec.write promoted).depth < 128 := by decide
  have shallowFilled : (codec.write promoted.withDefaults).depth < 128 := by decide
  have read := (ofJson_toJson_withDefaults promoted shallow).1
  exact ⟨read, (ofJson_toJson_withDefaults promoted.withDefaults shallowFilled).2 _ read⟩

end Recording

end BuildCapture
