import BuildCapture.Proofs.Build.RoundTrip
import BuildCapture.Snapshot.Codec
set_option autoImplicit false

namespace BuildCapture

open Json

theorem FailedTest.record_lawful : FailedTest.record.Lawful where
  distinct := by decide
  fields := by simp [FailedTest.record, Codec.string_lawful, Codec.text_lawful]
  build_parts _ := rfl

theorem FailedTest.record_depth (n : Nat) : FailedTest.record.codec.DepthAtMost (n + 1) :=
  Record.codec_depth (by simp [FailedTest.record])

theorem TestSummary.record_lawful : TestSummary.record.Lawful where
  distinct := by decide
  fields := by
    simp [TestSummary.record, Codec.int32_lawful, Codec.string_lawful.list,
      FailedTest.record_lawful.codec.list]
  build_parts _ := rfl

theorem TestSummary.record_depth (n : Nat) : TestSummary.record.codec.DepthAtMost (n + 3) :=
  Record.codec_depth (by simp [TestSummary.record, FailedTest.record_depth])

theorem SourceSummary.record_lawful : SourceSummary.record.Lawful where
  distinct := by decide
  fields := by simp [SourceSummary.record, Codec.text_lawful, Codec.nameSet_lawful]
  build_parts _ := rfl

theorem SourceSummary.record_depth (n : Nat) : SourceSummary.record.codec.DepthAtMost (n + 2) :=
  Record.codec_depth (by simp [SourceSummary.record])

theorem DependencySummary.record_lawful : DependencySummary.record.Lawful where
  distinct := by decide
  fields := by
    simp [DependencySummary.record, Codec.string_lawful.list, Artifact.record_lawful.codec.list,
      Dependency.codec_lawful.list, Codec.string_lawful.list.nameMap]
  build_parts _ := rfl

theorem DependencySummary.record_depth (n : Nat) :
    DependencySummary.record.codec.DepthAtMost (n + 3) :=
  Record.codec_depth (by
    simp [DependencySummary.record, Artifact.record_depth, Dependency.codec_depth])

theorem ImageSummary.record_lawful : ImageSummary.record.Lawful where
  distinct := by decide
  fields := by simp [ImageSummary.record, Codec.nameSet_lawful]
  build_parts _ := rfl

theorem ImageSummary.record_depth (n : Nat) : ImageSummary.record.codec.DepthAtMost (n + 2) :=
  Record.codec_depth (by simp [ImageSummary.record])

namespace Slot

variable {α : Type} {c : Codec α}

theorem codec_lawful (h : c.Lawful) (never : c.NeverNull) : (Slot.codec c).Lawful :=
  (h.option never).convert fun _ => rfl

@[simp] theorem codec_field (name : String) : (Slot.field name c).codec = Slot.codec c := rfl

@[simp] theorem codec_depth {n : Nat} (h : c.DepthAtMost n) : (Slot.codec c).DepthAtMost n :=
  h.option.convert Slot.mk Slot.get

end Slot

namespace Snapshot

theorem record_lawful : record.Lawful where
  distinct := by decide
  fields := by
    have result := Slot.codec_lawful BuildResult.codec_lawful (Codec.keyword_neverNull _ _)
    have tests := Slot.codec_lawful TestSummary.record_lawful.codec (Record.codec_neverNull _)
    have git := Slot.codec_lawful SourceSummary.record_lawful.codec (Record.codec_neverNull _)
    have maven := Slot.codec_lawful DependencySummary.record_lawful.codec (Record.codec_neverNull _)
    have docker := Slot.codec_lawful ImageSummary.record_lawful.codec (Record.codec_neverNull _)
    simp [record, Codec.string_lawful, Codec.int32_lawful, Codec.int64_lawful, Codec.text_lawful,
      Codec.nameSet_lawful, Variables.codec_lawful, result, tests, git, maven,
      docker]
  build_parts _ := rfl

theorem record_depth (n : Nat) : record.codec.DepthAtMost (n + 4) :=
  Record.codec_depth (by
    have vars : Variables.codec.DepthAtMost (n + 3) := (Codec.string_depth (n + 2)).nameMap
    simp [record, BuildResult.codec, vars, TestSummary.record_depth,
      SourceSummary.record_depth, DependencySummary.record_depth, ImageSummary.record_depth])

/-- Reading undoes writing. -/
theorem ofJson_toJson (s : Snapshot) : ofJson s.toJson = .ok s :=
  Codec.decode_encode record_lawful.codec s (record_depth 123 s)

end Snapshot

end BuildCapture
