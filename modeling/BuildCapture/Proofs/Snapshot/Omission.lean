import BuildCapture.Proofs.Report.Omission
import BuildCapture.Proofs.Snapshot.RoundTrip
import BuildCapture.Snapshot.Capture
set_option autoImplicit false

/-!
Null members of a snapshot's document. A field that may be written as `null` is one that may be
missing, whatever it is that lets it be missing; so the document is read as the same snapshot
without any of its null members, however deep they stand (`Snapshot.ofJson_without_nulls`).
-/

namespace BuildCapture

open Json

namespace Json

def IsNull (_place _name : String) (v : Value) : Prop := v = .null

namespace Codec

variable {α : Type} {c : Codec α}

/-- What the codec writes is read as before without any of its null members. -/
def NullOptional (c : Codec α) : Prop :=
  ∀ place a, c.Tolerates IsNull (fun _ _ => False) place a

theorem Lawful.nullOptional (h : c.Lawful) (scalar : c.DepthAtMost 0) : c.NullOptional :=
  fun _ => h.tolerates scalar

theorem NullOptional.option (h : c.NullOptional) (never : c.NeverNull) : c.option.NullOptional :=
  fun place => tolerates_option (h place) never

theorem NullOptional.list (h : c.NullOptional) : c.list.NullOptional :=
  fun place => tolerates_list (h place)

theorem NullOptional.nameMap (h : c.NullOptional) (never : c.NeverNull) :
    (Codec.nameMap c).NullOptional :=
  fun _ => tolerates_nameMap h fun _ a named => named.elim (never a) id

theorem NullOptional.convert {β : Type} {into : α → β} {back : β → α} (h : c.NullOptional)
    (inverse : ∀ b, into (back b) = b) : (c.convert into back).NullOptional := fun place b => {
  read := fun frame v shallow omitted => by
    show (c.read frame v.tree).map into = _
    rw [(h place (back b)).read frame v shallow omitted]
    exact congrArg Except.ok (inverse b)
  refuses := fun frame v found shallow omitted read => by
    obtain ⟨a, read, -⟩ := map_eq_ok_iff.1 read
    exact (h place (back b)).refuses frame v a shallow omitted read }

theorem list_neverNull (c : Codec α) : c.list.NeverNull := fun _ => nofun

theorem nameMap_neverNull (c : Codec α) : (Codec.nameMap c).NeverNull := fun _ => nofun

theorem nameSet_neverNull : nameSet.NeverNull := fun _ => nofun

theorem bool_neverNull : bool.NeverNull := fun _ => nofun

theorem int32_neverNull : int32.NeverNull := fun _ => nofun

theorem int64_neverNull : int64.NeverNull := fun _ => nofun

theorem string_nullOptional : string.NullOptional := string_lawful.nullOptional (string_depth 0)

theorem bool_nullOptional : bool.NullOptional := bool_lawful.nullOptional (bool_depth 0)

theorem int32_nullOptional : int32.NullOptional := int32_lawful.nullOptional (int32_depth 0)

theorem int64_nullOptional : int64.NullOptional := int64_lawful.nullOptional (int64_depth 0)

theorem nameSet_nullOptional : nameSet.NullOptional := fun _ => tolerates_nameSet

end Codec

structure RecordField.NullOptional {α : Type} (field : RecordField α) : Prop where
  codec : field.codec.NullOptional
  absent : ∀ a, field.codec.write a = .null → field.absent = some a

namespace RecordField

variable {α : Type} {c : Codec α} (name : String)

theorem nullOptional_of_neverNull {field : RecordField α} (h : field.codec.NullOptional)
    (never : field.codec.NeverNull) : field.NullOptional :=
  ⟨h, fun a null => absurd null (never a)⟩

theorem required_nullOptional (h : c.NullOptional) (never : c.NeverNull) :
    (required name c).NullOptional := nullOptional_of_neverNull h never

theorem defaulted_nullOptional (h : c.NullOptional) (never : c.NeverNull) (a : α) :
    (defaulted name c a).NullOptional := nullOptional_of_neverNull h never

theorem nullable_nullOptional (h : c.NullOptional) (never : c.NeverNull) :
    (nullable name c).NullOptional :=
  ⟨h.option never, fun _ null => congrArg some (never.eq_none null).symm⟩

theorem text_nullOptional : (text name).NullOptional :=
  ⟨Codec.string_nullOptional.option Codec.string_neverNull,
    fun _ null => congrArg some (Codec.string_neverNull.eq_none null).symm⟩

end RecordField

namespace RecordFields

def NullOptional : {β σ : Type} → RecordFields β σ → Prop
  | _, _, .nil => True
  | _, _, .cons field rest => field.NullOptional ∧ rest.NullOptional

variable {α β σ : Type}

@[simp] theorem nullOptional_nil : RecordFields.nil.NullOptional := trivial

@[simp] theorem nullOptional_cons (field : RecordField α) (rest : RecordFields β σ) :
    (RecordFields.cons field rest).NullOptional ↔ field.NullOptional ∧ rest.NullOptional := Iff.rfl

theorem NullOptional.tolerates {fs : RecordFields β σ} (h : fs.NullOptional) (place : String)
    (b : β) : fs.Tolerates IsNull (fun _ _ => False) place b := by
  induction fs with
  | nil => trivial
  | cons field rest ih =>
    exact ⟨⟨h.1.codec field.name b.1, h.1.absent b.1, False.elim⟩, ih h.2 b.2⟩

end RecordFields

theorem Record.Lawful.nullOptional {α : Type} {r : Record α} (h : r.Lawful)
    (fields : r.fields.NullOptional) : r.codec.NullOptional :=
  fun place => h.codec_tolerates fun a => fields.tolerates place (r.parts a)

end Json

open RecordField

theorem FailedTest.codec_nullOptional : FailedTest.record.codec.NullOptional :=
  FailedTest.record_lawful.nullOptional (by
    simp [FailedTest.record, required_nullOptional, nullable_nullOptional,
      Codec.string_nullOptional, Codec.string_neverNull])

theorem TestSummary.codec_nullOptional : TestSummary.record.codec.NullOptional :=
  TestSummary.record_lawful.nullOptional (by
    simp [TestSummary.record, required_nullOptional, Codec.int32_nullOptional,
      Codec.int32_neverNull, Codec.list_neverNull, Codec.string_nullOptional.list,
      FailedTest.codec_nullOptional.list])

theorem SourceSummary.codec_nullOptional : SourceSummary.record.codec.NullOptional :=
  SourceSummary.record_lawful.nullOptional (by
    simp [SourceSummary.record, required_nullOptional, nullable_nullOptional,
      Codec.string_nullOptional, Codec.string_neverNull, Codec.nameSet_nullOptional,
      Codec.nameSet_neverNull])

theorem Artifact.fields_nullOptional : Artifact.record.fields.NullOptional := by
  simp [Artifact.record, required_nullOptional, defaulted_nullOptional, text_nullOptional,
    Codec.string_nullOptional, Codec.string_neverNull, Codec.bool_nullOptional,
    Codec.bool_neverNull]

theorem Dependency.usage_nullOptional : Dependency.usage.NullOptional := by
  simp [Dependency.usage, text_nullOptional, defaulted_nullOptional, Codec.bool_nullOptional,
    Codec.bool_neverNull]

theorem Dependency.codec_nullOptional : Dependency.codec.NullOptional := fun place _ =>
  tolerates_of_fields (Artifact.fields_nullOptional.tolerates place _)
    (usage_nullOptional.tolerates place _)

theorem DependencySummary.codec_nullOptional : DependencySummary.record.codec.NullOptional :=
  DependencySummary.record_lawful.nullOptional (by
    have artifact := Artifact.record_lawful.nullOptional Artifact.fields_nullOptional
    have jobs := Codec.string_nullOptional.list.nameMap (Codec.list_neverNull _)
    simp [DependencySummary.record, required_nullOptional, Codec.list_neverNull,
      Codec.nameMap_neverNull, artifact.list, Dependency.codec_nullOptional.list,
      Codec.string_nullOptional.list, jobs])

theorem ImageSummary.codec_nullOptional : ImageSummary.record.codec.NullOptional :=
  ImageSummary.record_lawful.nullOptional (by
    simp [ImageSummary.record, required_nullOptional, Codec.nameSet_nullOptional,
      Codec.nameSet_neverNull])

theorem Slot.field_nullOptional {α : Type} {c : Codec α} (name : String) (h : c.NullOptional)
    (never : c.NeverNull) : (Slot.field name c).NullOptional where
  codec := (h.option never).convert fun _ => rfl
  absent _ null := congrArg (some ∘ Slot.mk) (never.eq_none null).symm

namespace Snapshot

theorem codec_nullOptional : record.codec.NullOptional :=
  record_lawful.nullOptional (by
    have result := BuildResult.codec_lawful.nullOptional (Codec.keyword_depth _ _ 0)
    have resultNever : BuildResult.codec.NeverNull := Codec.keyword_neverNull _ _
    have named : Variables.codec.NullOptional :=
      Codec.string_nullOptional.nameMap Codec.string_neverNull
    simp [record, required_nullOptional, nullable_nullOptional, Slot.field_nullOptional,
      Record.codec_neverNull, Codec.string_nullOptional, Codec.string_neverNull,
      Codec.int32_nullOptional, Codec.int32_neverNull, Codec.int64_nullOptional,
      Codec.int64_neverNull, Codec.nameSet_nullOptional, Codec.nameSet_neverNull, named,
      Variables.codec_neverNull, result, resultNever, TestSummary.codec_nullOptional,
      SourceSummary.codec_nullOptional, DependencySummary.codec_nullOptional,
      ImageSummary.codec_nullOptional])

/-- A null member means what a missing one does: any text of a snapshot's document with null members
left out, at whichever depth they stand, is read as the document itself is. -/
theorem ofJson_without_nulls (s : Snapshot) {v : Value}
    (omitted : Value.Omits IsNull "" s.toValue v) {t : List Char} (spelled : v.Spelled t) :
    ofJson s.toJson = .ok s ∧ ofJson (String.ofList t) = ofJson s.toJson := by
  have whole : ofJson s.toJson = .ok s :=
    Codec.decode_encode record_lawful.codec s (record_depth 123 s)
  have fits : v.Fits := Value.fits_of_omits _ omitted (record_lawful.codec.fits s)
  refine ⟨whole, ?_⟩
  rw [whole, ofJson, Codec.decode_spelled _ spelled fits]
  exact (codec_nullOptional "" s).read .top v (record_depth 123 s) omitted

def dropsNull (_place _name : String) : Value → Bool
  | .null => true
  | _ => false

theorem isNull_of_dropsNull (place name : String) (v : Value)
    (h : dropsNull place name v = true) : IsNull place name v := by
  unfold dropsNull at h
  split at h
  · rfl
  · cases h

def ongoing : Snapshot :=
  { bare {
      id := "9"
      project := ⟨"deploy", "ops/deploy"⟩
      number := 9
      startTime := ⟨1483221600, 0, by decide, by decide, by decide⟩ }
      ⟨1483221660, 0, by decide, by decide, by decide⟩ "2016-12-31T22:00:00.000+0000" with
    testResults := ⟨some {
      totalCount := 1
      failCount := 1
      failedTestsWithErrorDetail := [⟨"suite.case", none⟩]
      failedTests := ["suite.case"] }⟩
    gitInfo := ⟨some { remoteUrls := .ofList ["https://git.example.com/app.git"] }⟩
    mavenInfo := ⟨some {
      dependencies := [⟨⟨"org.acme", "core", "1", none, none, none, none, none, false, none⟩,
        none, false⟩] }⟩ }

/-- Without any null member the document is still one of the same build. -/
theorem ofJson_ongoing :
    ofJson (ongoing.toValue.without dropsNull "").write = .ok ongoing := by
  have omitted := Value.omits_without isNull_of_dropsNull "" ongoing.toValue
  obtain ⟨whole, same⟩ := ofJson_without_nulls ongoing omitted (Value.spelled_wire _)
  exact same.trans whole

end Snapshot

end BuildCapture
