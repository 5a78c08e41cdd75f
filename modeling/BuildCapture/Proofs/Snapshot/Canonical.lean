import BuildCapture.Proofs.Build.Reordered
import BuildCapture.Proofs.Snapshot.Rearranged
set_option autoImplicit false

/-!
The documents of snapshots are canonical: builds whose documents differ only in what has no order
have snapshots with one and the same document (`Snapshot.document_of_reordered`), where all that has
no order of its own stands in the order of the names' code points (`Snapshot.inOrder`).
-/

namespace BuildCapture

open Json

def Json.Value.at? : List String → Value → Option Value
  | [], v => some v
  | name :: path, .object members => (members.lookup name).bind (at? path)
  | _ :: _, _ => none

def Json.Value.Increasing (v : Value) : Prop :=
  ∃ names : List String, v = .array (names.map .string) ∧ names.Pairwise (· < ·)

theorem NameSet.increasing_write (s : NameSet) : (Codec.nameSet.write s).Increasing :=
  ⟨s.toList, rfl, List.pairwise_map.2 s.marks.sorted⟩

def Json.Document.withMembers (more : List (Literal × Document)) : Document → Document
  | .object members => .object (members ++ more)
  | d => d

namespace Snapshot

/-- What has no order of its own stands in strictly increasing order in the document. -/
structure InOrder (s : Snapshot) : Prop where
  buildVariables : ∃ members, s.toValue.at? ["buildVariables"] = some (.object members) ∧
    (members.map Prod.fst).Pairwise (· < ·)
  sensitiveBuildVariables : ∃ v, s.toValue.at? ["sensitiveBuildVariables"] = some v ∧ v.Increasing
  remoteUrls : s.gitInfo.isSet = true →
    ∃ v, s.toValue.at? ["gitInfo", "remoteUrls"] = some v ∧ v.Increasing
  imageIds : s.dockerInfo.isSet = true →
    ∃ v, s.toValue.at? ["dockerInfo", "imageIDs"] = some v ∧ v.Increasing

theorem inOrder (s : Snapshot) : s.InOrder where
  buildVariables := by
    refine ⟨_, rfl, ?_⟩
    rw [List.map_map]
    exact List.pairwise_map.2 s.buildVariables.sorted
  sensitiveBuildVariables := ⟨_, rfl, s.sensitiveBuildVariables.increasing_write⟩
  remoteUrls filled := by
    obtain ⟨git, held⟩ := Option.isSome_iff_exists.1 filled
    refine ⟨_, ?_, git.remoteUrls.increasing_write⟩
    show (SourceSummary.record.codec.option.write s.gitInfo.get).at? ["remoteUrls"] = _
    rw [held]
    rfl
  imageIds filled := by
    obtain ⟨docker, held⟩ := Option.isSome_iff_exists.1 filled
    refine ⟨_, ?_, docker.imageIds.increasing_write⟩
    show (ImageSummary.record.codec.option.write s.dockerInfo.get).at? ["imageIDs"] = _
    rw [held]
    rfl

/-- The order of variables in the document of a build does not matter, nor do the order and the
number of the names in its sets: documents that differ in these only are accepted or refused alike,
and what is captured of the two builds has one and the same document, where the variables and these
names are in order. -/
theorem document_of_reordered {d d' : Document} {s s' : String} (h : Recording.Reordered d d')
    (text : d.Text s) (text' : d'.Text s') :
    ((∃ r, Recording.ofJson s = .ok r) ↔ ∃ r', Recording.ofJson s' = .ok r') ∧
    ∀ r r', Recording.ofJson s = .ok r → Recording.ofJson s' = .ok r' → ∀ mode now format,
      (capture mode r' now format).map (·.1.toJson) =
        (capture mode r now format).map (·.1.toJson) ∧
      ∀ captured events, capture mode r now format = some (captured, events) →
        captured.toJson = captured.toValue.write ∧ captured.InOrder := by
  have agree := Recording.agree_of_reordered h text text'
  refine ⟨exists_congr agree, fun r r' read read' mode now format =>
    ⟨?same, fun captured _ _ => ?ordered⟩⟩
  case same =>
    obtain rfl : r' = r := Except.ok.inj (read'.symm.trans ((agree r).1 read))
    rfl
  case ordered => exact ⟨rfl, captured.inOrder⟩

def imagesDocument (images : List Document) : Document :=
  imagesReport.withMembers [(.bare "imageIDs", .array images)]

def unorderedDocument (vars : List (Literal × Document)) (sensitive images : List Document) :
    Document :=
  (measuredDocument [imagesDocument images]).withMembers [
    (.bare "environment", .object vars),
    (.bare "sensitiveBuildVariables", .array sensitive)]

theorem unorderedDocument_reordered {vars vars' : List (Literal × Document)}
    {sensitive sensitive' images images' : List Document} (apart : vars.Pairwise Document.Apart)
    (perm : vars'.Perm vars) (sameSensitive : ∀ d, d ∈ sensitive' ↔ d ∈ sensitive)
    (sameImages : ∀ d, d ∈ images' ↔ d ∈ images) :
    Recording.Reordered (unorderedDocument vars sensitive images)
      (unorderedDocument vars' sensitive' images') := by
  have report : Report.Reordered (imagesDocument images) (imagesDocument images') :=
    .object (.cons (.inl rfl) (.cons (.inr ⟨"imageIDs", rfl, rfl, by decide, .array sameImages⟩)
      .nil))
  exact ⟨0, .object <| .cons (.inl rfl) <| .cons (.inl rfl) <| .cons (.inl rfl) <|
    .cons (.inl rfl) <|
    .cons (.inr ⟨"actions", rfl, rfl, .array (.cons (.inr report) .nil)⟩) <|
    .cons (.inr ⟨"environment", rfl, rfl, .object apart perm⟩) <|
    .cons (.inr ⟨"sensitiveBuildVariables", rfl, rfl, .array sameSensitive⟩) .nil⟩

def home : Literal × Document := (.bare "HOME", .string (.bare "/"))

def user : Literal × Document := (.bare "USER", .string (.bare "ci"))

def token : Document := .string (.bare "TOKEN")

def firstImage : Document := .string (.bare "sha256:1")

def secondImage : Document := .string (.bare "sha256:2")

def orderedText : String :=
  String.ofList (unorderedDocument [home, user] [token] [firstImage, secondImage]).wire

def unorderedText : String :=
  String.ofList (unorderedDocument [user, home] [token, token]
    [secondImage, firstImage, secondImage]).wire

/-- Both documents are read, and what is captured of them is the same. -/
theorem document_of_unordered : ∃ r r', Recording.ofJson orderedText = .ok r ∧
    Recording.ofJson unorderedText = .ok r' ∧
    (capture .direct r' measured.build.startTime default).map (·.1.toJson) =
      (capture .direct r measured.build.startTime default).map (·.1.toJson) := by
  have apart : [home, user].Pairwise Document.Apart := by
    have named : home.1.read = .ok "HOME" ∧ user.1.read = .ok "USER" := ⟨rfl, rfl⟩
    refine List.pairwise_pair.2 fun name read read' => ?_
    rw [named.1] at read
    rw [named.2] at read'
    exact absurd ((Except.ok.inj read).trans (Except.ok.inj read').symm) (by decide)
  have tokens (d : Document) : d ∈ [token, token] ↔ d ∈ [token] := by simp
  have images (d : Document) : d ∈ [secondImage, firstImage, secondImage] ↔
      d ∈ [firstImage, secondImage] := by
    simp only [List.mem_cons, List.not_mem_nil, or_false]
    grind
  have reordered := unorderedDocument_reordered apart (.swap home user []) tokens images
  obtain ⟨r, read⟩ : ∃ r, Recording.ofJson orderedText = .ok r := by
    rw [Recording.ofJson, orderedText, Codec.decode_text _ (Document.text_wire _)]
    exact ⟨_, rfl⟩
  obtain ⟨accepted, same⟩ :=
    document_of_reordered reordered (Document.text_wire _) (Document.text_wire _)
  obtain ⟨r', read'⟩ := accepted.1 ⟨r, read⟩
  exact ⟨r, r', read, read', (same r r' read read' .direct _ _).1⟩

end Snapshot

end BuildCapture
