import BuildCapture.Proofs.Build.RoundTrip
import BuildCapture.Proofs.Json.Focus
import BuildCapture.Proofs.Report.Foreign
import BuildCapture.Proofs.Snapshot.Secrecy
set_option autoImplicit false

namespace BuildCapture

open Json

namespace Recording

/-- Documents of builds that have these reports each and are the same otherwise. A document that
holds its fields in an array has the reports in the twelfth place. -/
inductive Rereported (items items' : List Document) : Document → Document → Prop where
  | object {before after : List (Literal × Document)} {key : Literal}
    (named : key.read = .ok "actions") :
    Rereported items items' (.object (before ++ (key, .array items) :: after))
      (.object (before ++ (key, .array items') :: after))
  | array {before after : List Document} (here : before.length = 11) :
    Rereported items items' (.array (before ++ .array items :: after))
      (.array (before ++ .array items' :: after))

def withActions (r : Recording) (actions : List Report) : Recording :=
  { r with build := { r.build with actions } }

def actionsPlace (parent : Codec Recording) :
    Focus (.defaulted "actions" Report.codec.list []) (record parent).fields :=
  .there <| .there <| .there <| .there <| .there <| .there <| .there <| .there <| .there <|
    .there <| .there .here

theorem build_get {parent : Codec Recording} (parts : (record parent).Parts) :
    ((record parent).build parts).build.actions = (actionsPlace parent).get parts := by
  obtain ⟨_, _, _, _, _, _, _, _, _, _, _, _, _, _, _, _, trigger, _⟩ := parts
  cases trigger <;> rfl

theorem build_set {parent : Codec Recording} (parts : (record parent).Parts)
    (actions : List Report) :
    (record parent).build ((actionsPlace parent).set actions parts) =
      ((record parent).build parts).withActions actions := by
  obtain ⟨_, _, _, _, _, _, _, _, _, _, _, _, _, _, _, _, trigger, _⟩ := parts
  cases trigger <;> rfl

theorem Rereported.differ {items items' : List Document} {d d' : Document}
    (h : Rereported items items' d d') (parent : Codec Recording) :
    (actionsPlace parent).Differ (Document.tree (.array items)) (Document.tree (.array items'))
      d.tree d'.tree := by
  cases h with
  | object named => exact Document.Exchanged.differ (actionsPlace parent) (.object named)
  | array here => exact Document.Exchanged.differ (actionsPlace parent) (.array here)

theorem read_rearranged {items items' : List Document} {d d' : Document}
    (h : Rereported items items' d d') (rearranged : Document.Rearranged items items')
    {r : Recording} (read : codec.read .top d.tree = .ok r) :
    ∃ actions, codec.read .top d'.tree = .ok (r.withActions actions) ∧ ∀ kind,
      actions.filter (·.kind? = some kind) = r.build.actions.filter (·.kind? = some kind) := by
  have distinct : (record (codecUpTo 126)).fields.names.Nodup := by decide
  have read : (record (codecUpTo 126)).codec.read .top d.tree = .ok r := read
  obtain ⟨inner, parts, entered, rfl, readActions, again⟩ :=
    Record.codec_read_set distinct (h.differ (codecUpTo 126)) read
  have room : inner.room = 126 := by
    cases entered
    rfl
  obtain ⟨actions, readOthers, kept⟩ := Report.read_rearranged room rearranged readActions
  refine ⟨actions, ?_, ?_⟩
  · rw [← build_set]
    exact again actions readOthers
  · rw [build_get]
    exact kept

theorem ofJson_rearranged {s s' : String} {d d' : Document} (text : d.Text s) (text' : d'.Text s')
    {items items' : List Document} (h : Rereported items items' d d')
    (rearranged : Document.Rearranged items items') {r : Recording} (read : ofJson s = .ok r) :
    ∃ actions, ofJson s' = .ok (r.withActions actions) ∧ ∀ kind,
      actions.filter (·.kind? = some kind) = r.build.actions.filter (·.kind? = some kind) := by
  rw [ofJson, codec.decode_text text] at read
  obtain ⟨found, readTree, rfl⟩ := map_eq_ok_iff.1 read
  obtain ⟨actions, readOthers, kept⟩ := read_rearranged h rearranged readTree
  refine ⟨actions, ?_, kept⟩
  rw [ofJson, codec.decode_text text', readOthers]
  rfl

end Recording

namespace Snapshot

section
variable {r : Recording} {actions : List Report}
  (same : ∀ kind, (r.withActions actions).build.report? kind = r.build.report? kind)
include same

theorem updateResult_withActions (s : Snapshot) :
    s.updateResult (r.withActions actions).build = s.updateResult r.build := by
  unfold updateResult fillReport
  simp only [same]
  rfl

theorem capture_withActions (mode : Mode) (now : Instant) (format : DateFormat) :
    capture mode (r.withActions actions) now format = capture mode r now format := by
  have at_timestamp : captureAt mode (r.withActions actions) now = captureAt mode r now := by
    funext timestamp
    have root (s : Snapshot) : s.withRoot (r.withActions actions).root = s.withRoot r.root := by
      refine withRoot_root_congr ?_ ?_ ?_ ?_ s <;> rfl
    unfold captureAt
    rw [updateResult_withActions same]
    simp only [root]
    rfl
  rw [capture, capture, at_timestamp]
  rfl

end

/-- Of a recorded build's document, any rearrangement of the reports is read too, and whatever is
captured of the two builds, at whichever time, lets out the same. -/
theorem released_rearranged {s : String} {r : Recording} (read : Recording.ofJson s = .ok r) :
    (∃ d : Document, d.Text s) ∧
    ∀ d d' items items' s', d.Text s → Recording.Rereported items items' d d' →
      Document.Rearranged items items' → d'.Text s' →
      ∃ r', Recording.ofJson s' = .ok r' ∧ ∀ mode now format ops,
        released mode r' now format ops = released mode r now format ops := by
  refine ⟨?document, fun d d' items items' s' text h rearranged text' => ?again⟩
  case document =>
    rw [Recording.ofJson] at read
    obtain ⟨found, decoded, -⟩ := map_eq_ok_iff.1 read
    exact Codec.exists_text_of_decode decoded
  case again =>
    obtain ⟨actions, readAgain, kept⟩ := Recording.ofJson_rearranged text text' h rearranged read
    refine ⟨r.withActions actions, readAgain, fun mode now format ops => ?_⟩
    -- A capture looks up the first report of a kind only.
    have same (kind : ReportKind) :
        (r.withActions actions).build.report? kind = r.build.report? kind := by
      rw [Build.report?, Build.report?, ← List.head?_filter, ← List.head?_filter]
      exact congrArg List.head? (kept kind)
    rw [released, released, capture_withActions same]

def reportDocument (kind : Literal) (others : List (Literal × Document)) : Document :=
  .object ((.bare "kind", .string kind) :: others)

def testsReport : Document := reportDocument (.bare "test_results") []

def imagesReport : Document := reportDocument (.bare "image_fingerprint") []

def coverageReport : Document :=
  reportDocument (.bare "coverage") [
    (.bare "lines", .array [
      .number ⟨false, ⟨['1'], by decide, by decide⟩, some ⟨['5'], by decide, by decide⟩,
        some ⟨true, some false, ⟨['3'], by decide, by decide⟩⟩, by simp⟩])]

theorem coverageReport_foreign : coverageReport.Foreign := by
  have key := Literal.paired_bare (s := "kind") (by decide)
  have kind := Literal.paired_bare (s := "coverage") (by decide)
  have lines := Literal.paired_bare (s := "lines") (by decide)
  exact @Document.Foreign.intro [] _ _ _ _ rfl rfl (by decide) (by decide)
    ⟨key, kind, lines, ⟨⟨_, rfl⟩, trivial⟩, trivial⟩

def measuredFields : List (Literal × Document) := [
  (.bare "id", .string (.bare "7")),
  (.bare "project", .object [
    (.bare "name", .string (.bare "nightly")),
    (.bare "fullName", .string (.bare "ci/nightly"))]),
  (.bare "number", .number ⟨false, ⟨['7'], by decide, by decide⟩, none, none, by simp⟩),
  (.bare "startTime", .string (.bare "2016-12-31T23:59:00Z"))]

def measuredDocument (reports : List Document) : Document :=
  .object (measuredFields ++ [(.bare "actions", .array reports)])

def measuredText (reports : List Document) : String :=
  String.ofList (measuredDocument reports).wire

def measured : Recording where
  build := Build.withDefaults {
    id := "7"
    project := ⟨"nightly", "ci/nightly"⟩
    number := 7
    startTime := ⟨1483228740, 0, by decide, by decide, by decide⟩
    actions := [.testResults ⟨0, 0, 0, []⟩, .imageFingerprint ⟨∅⟩] }
  triggers := []

theorem released_with_coverage :
    Recording.ofJson (measuredText [testsReport, imagesReport]) = .ok measured ∧
    ∃ r', Recording.ofJson (measuredText [coverageReport, imagesReport, testsReport]) = .ok r' ∧
      released .direct r' measured.build.startTime default [] =
        released .direct measured measured.build.startTime default [] := by
  have read : Recording.ofJson (measuredText [testsReport, imagesReport]) = .ok measured := by
    rw [Recording.ofJson, measuredText, Codec.decode_text _ (Document.text_wire _)]
    rfl
  have rearranged : Document.Rearranged [testsReport, imagesReport]
      [coverageReport, imagesReport, testsReport] := by
    refine ⟨[coverageReport], ?_, List.reverse_perm [testsReport, imagesReport, coverageReport],
      ?_⟩
    · simpa using ⟨coverageReport_foreign, show coverageReport.depth + 2 < 128 by decide⟩
    · intro kind
      cases kind <;> rfl
  obtain ⟨r', readAgain, same⟩ := (released_rearranged read).2 _ _ _ _ _ (Document.text_wire _)
    (.object rfl) rearranged (Document.text_wire _)
  exact ⟨read, r', readAgain, same .direct measured.build.startTime default []⟩

end Snapshot

end BuildCapture
