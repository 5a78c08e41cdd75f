import BuildCapture.Proofs.Build.RoundTrip
import BuildCapture.Proofs.Report.Omission
set_option autoImplicit false

namespace BuildCapture

open Json
open Recording (MayLack Needs)
open Json.RecordFields

theorem Codec.instant_depth (n : Nat) : Codec.instant.DepthAtMost n := fun _ => Nat.zero_le n

theorem Project.record_tolerates (place : String) (p : Project) :
    Project.record.fields.Tolerates MayLack Needs place (Project.record.parts p) :=
  tolerates_required rfl (string_tolerates _ _) <|
    tolerates_required rfl (string_tolerates _ _) trivial

theorem Node.record_tolerates (n : Node) :
    Node.record.fields.Tolerates MayLack Needs "node" (Node.record.parts n) :=
  tolerates_defaulted rfl Codec.string_lawful (string_tolerates _ _) <|
    tolerates_defaulted rfl Codec.string_lawful (string_tolerates _ _) trivial

theorem Executor.record_tolerates (place : String) (e : Executor) :
    Executor.record.fields.Tolerates MayLack Needs place (Executor.record.parts e) := by
  have never := Record.codec_neverNull Node.record
  have node := Codec.tolerates_option (Node.record_lawful.codec_tolerates Node.record_tolerates)
    never e.node
  exact tolerates_nullable rfl never.eq_none node trivial

theorem Variables.codec_tolerates {place : String} (h : place ∈ Recording.variableMembers)
    (vars : Variables) : Variables.codec.Tolerates MayLack Needs place vars :=
  Codec.tolerates_nameMap string_tolerates
    (fun _ _ named => named.elim (fun lack => lack.1 h) fun needed => needed.1 h) vars

theorem Contributor.record_tolerates (place : String) (c : Contributor) :
    Contributor.record.fields.Tolerates MayLack Needs place (Contributor.record.parts c) :=
  tolerates_defaulted rfl Variables.codec_lawful (Variables.codec_tolerates (by decide) _) trivial

namespace Recording

theorem default?_displayName {place : String} (h : place ≠ "node") :
    default? place "displayName" = some .null := by
  simp [default?, required, h]

theorem record_tolerates {parent : Codec Recording} {place : String} (h : place ≠ "node")
    {r : Recording} (only : parent.option.write r.parent? = .null → r.parent? = none)
    (tolerates : parent.option.Tolerates MayLack Needs "parent" r.parent?) :
    (record parent).fields.Tolerates MayLack Needs place ((record parent).parts r) := by
  have instant (name : String) (t : Instant) : Codec.instant.Tolerates MayLack Needs name t :=
    Codec.instant_lawful.tolerates (Codec.instant_depth 0) t
  have resultNever := Codec.keyword_neverNull BuildResult.named BuildResult.name
  have result (result : BuildResult) : BuildResult.codec.Tolerates MayLack Needs "result" result :=
    BuildResult.codec_lawful.tolerates (Codec.keyword_depth _ _ 0) result
  have variablesNever := Variables.codec_neverNull
  have executorNever := Record.codec_neverNull Executor.record
  have executor := Executor.record_lawful.codec_tolerates (Executor.record_tolerates "executor")
  have contributorNever := Record.codec_neverNull Contributor.record
  have contributor := Contributor.record_lawful.codec_tolerates
    (Contributor.record_tolerates "environments")
  exact tolerates_required rfl (string_tolerates _ _) <|
    tolerates_required rfl
      (Project.record_lawful.codec_tolerates (Project.record_tolerates _) _) <|
    tolerates_text (default?_displayName h) <| tolerates_text rfl <| tolerates_text rfl <|
    tolerates_text rfl <|
    tolerates_required rfl (int32_tolerates _ _) <|
    tolerates_required rfl (instant _ _) <|
    tolerates_nullable rfl Codec.instant_neverNull.eq_none
      (Codec.tolerates_option (instant _) Codec.instant_neverNull _) <|
    tolerates_nullable rfl resultNever.eq_none (Codec.tolerates_option result resultNever _) <|
    tolerates_nullable rfl executorNever.eq_none
      (Codec.tolerates_option executor executorNever _) <|
    tolerates_defaulted rfl Report.codec_lawful.list
      (Codec.tolerates_list (Report.codec_tolerates _) _) <|
    tolerates_nullable rfl variablesNever.eq_none
      (Codec.tolerates_option (Variables.codec_tolerates (by decide)) variablesNever _) <|
    tolerates_defaulted rfl Variables.codec_lawful (Variables.codec_tolerates (by decide) _) <|
    tolerates_defaulted rfl Codec.nameSet_lawful (Codec.tolerates_nameSet _) <|
    tolerates_defaulted rfl (Contributor.record_lawful.codec.option contributorNever).list
      (Codec.tolerates_list (Codec.tolerates_option contributor contributorNever) _) <|
    tolerates_nullable rfl only tolerates trivial

theorem codec_tolerates_untriggered (parent : Codec Recording) {place : String}
    (h : place ≠ "node") (b : Build) :
    (record parent).codec.Tolerates MayLack Needs place ⟨b, []⟩ :=
  (record_lawfulAt (Codec.lawfulAt_none parent)).codec_tolerates
    (record_tolerates h (fun _ => rfl) (Codec.tolerates_none parent))

theorem codecUpTo_tolerates {n : Nat} {place : String} (h : place ≠ "node") {b : Build}
    {triggers : List Build} (few : triggers.length ≤ n) :
    (codecUpTo n).Tolerates MayLack Needs place ⟨b, triggers⟩ := by
  induction triggers generalizing b n place with
  | nil =>
    cases n with
    | zero => exact codec_tolerates_untriggered _ h b
    | succ n => exact codec_tolerates_untriggered _ h b
  | cons trigger triggers ih =>
    cases n with
    | zero => cases few
    | succ n =>
      have few := Nat.le_of_succ_le_succ few
      have never := codecUpTo_neverNull n
      have lawful : (codecUpTo n).LawfulAt ⟨trigger, triggers⟩ := codecUpTo_lawfulAt few
      exact (record_lawfulAt (lawful.some never)).codec_tolerates
        (record_tolerates h never.eq_none ((ih (by decide) few).some never))

/-- The codec of as many triggers as there is room for writes the build as the whole codec does. -/
theorem codec_tolerates {place : String} (h : place ≠ "node") (r : Recording) :
    codec.Tolerates MayLack Needs place r where
  read frame v shallow omitted := by
    have few : r.triggers.length ≤ frame.room :=
      Nat.le_of_lt (Nat.lt_of_lt_of_le (length_lt_depth r.build r.triggers) shallow)
    have same : (codecUpTo frame.room).write r = codec.write r := codecUpTo_write few
    rw [← same] at shallow omitted
    exact (codecUpTo_tolerates h few).read frame v shallow omitted
  refuses frame v found shallow omitted read := by
    have few : r.triggers.length ≤ frame.room :=
      Nat.le_of_lt (Nat.lt_of_lt_of_le (length_lt_depth r.build r.triggers) shallow)
    have same : (codecUpTo frame.room).write r = codec.write r := codecUpTo_write few
    rw [← same] at shallow omitted ⊢
    exact (codecUpTo_tolerates h few).refuses frame v found shallow omitted read

theorem ofJson_of_read {v : Value} {t : List Char} (spelled : v.Spelled t) (fits : v.Fits)
    {r : Recording} (read : codec.read .top v.tree = .ok r) :
    ofJson (String.ofList t) = .ok r.withDefaults := by
  rw [ofJson, codec.decode_spelled spelled fits, read]
  rfl

theorem read_of_ofJson {v : Value} {t : List Char} (spelled : v.Spelled t) (fits : v.Fits)
    {found : Recording} (h : ofJson (String.ofList t) = .ok found) :
    ∃ r, codec.read .top v.tree = .ok r := by
  rw [ofJson, codec.decode_spelled spelled fits] at h
  obtain ⟨r, read, -⟩ := map_eq_ok_iff.1 h
  exact ⟨r, read⟩

/-- Any text of a build's document with members left out is read as the document is, as the build
with its names and its address filled in, if all of them may be missing, and is not read if one of
them may not. -/
theorem ofJson_omit (r : Recording) (shallow : (codec.write r).depth < 128) {v : Value}
    (omitted : Value.Omits (Named MayLack Needs) "" (codec.write r) v) {t : List Char}
    (spelled : v.Spelled t) :
    ofJson r.toJson = .ok r.withDefaults ∧
    (Value.Omits MayLack "" (codec.write r) v → ofJson (String.ofList t) = ofJson r.toJson) ∧
    (¬ Value.Omits MayLack "" (codec.write r) v → ∃ e, ofJson (String.ofList t) = .error e) := by
  have tolerates : codec.Tolerates MayLack Needs "" r := codec_tolerates (by decide) r
  have room : (codec.write r).depth ≤ Frame.top.room := Nat.le_of_lt_succ shallow
  have fits : v.Fits := Value.fits_of_omits _ omitted (codec_lawful.fits r)
  have whole : ofJson r.toJson = .ok r.withDefaults :=
    ofJson_of_read (Value.spelled_wire _) (codec_lawful.fits r)
      (codec_lawful.read_write r .top room)
  refine ⟨whole, fun lack => ?lack, fun missed => ?missed⟩
  case lack =>
    rw [whole]
    exact ofJson_of_read spelled fits (tolerates.read .top v room lack)
  case missed =>
    cases read : ofJson (String.ofList t) with
    | error e => exact ⟨e, rfl⟩
    | ok found =>
      obtain ⟨found, read⟩ := read_of_ofJson spelled fits read
      exact absurd (tolerates.refuses .top v found room omitted read) missed

def holdsDefault (place name : String) (v : Value) : Bool :=
  !variableMembers.contains place &&
    match default? place name, v with
    | some .null, .null => true
    | some (.bool false), .bool b => !b
    | some (.int 0), .int n => n = 0
    | some (.string ""), .string s => s = ""
    | some (.array []), .array items => items.isEmpty
    | some (.object []), .object members => members.isEmpty
    | _, _ => false

theorem mayLack_of_holdsDefault (place name : String) (v : Value)
    (h : holdsDefault place name v = true) : MayLack place name v := by
  simp only [holdsDefault, Bool.and_eq_true, Bool.not_eq_true', List.contains_eq_mem,
    decide_eq_false_iff_not] at h
  refine ⟨h.1, ?_⟩
  have holds := h.2
  split at holds <;> simp_all

def deployed : Recording where
  build := {
    id := "9"
    project := ⟨"deploy", "ops/deploy"⟩
    number := 9
    startTime := ⟨1483228798, 0, by decide, by decide, by decide⟩
    executor := some ⟨some ⟨"", ""⟩⟩
    actions := [
      .testResults ⟨0, 0, 0, []⟩,
      .dependency ⟨[], [], [], [],
        [⟨⟨"org.acme", "core", "1", none, none, none, none, none, false, none⟩, none, false⟩], []⟩]
    buildVariables := .ofList [("project", "")]
    environments := [none, some ⟨∅⟩] }
  triggers := [{
    id := "8"
    project := ⟨"nightly", "ci/nightly"⟩
    number := 8
    startTime := ⟨1483228700, 0, by decide, by decide, by decide⟩ }]

def deployedMembers : List (String × Value) := [
  ("project", .object [("name", .string "deploy"), ("fullName", .string "ops/deploy")]),
  ("number", .int 9),
  ("startTime", .string "2016-12-31T23:59:58Z"),
  ("executor", .object [("node", .object [])]),
  ("actions", .array [
    .object [("kind", .string "test_results")],
    .object [("kind", .string "dependency"), ("dependencies", .array [
      .object [("groupId", .string "org.acme"), ("artifactId", .string "core"),
        ("version", .string "1")]])]]),
  ("buildVariables", .object [("project", .string "")]),
  ("environments", .array [.null, .object []]),
  ("parent", .object [
    ("id", .string "8"),
    ("project", .object [("name", .string "nightly"), ("fullName", .string "ci/nightly")]),
    ("number", .int 8),
    ("startTime", .string "2016-12-31T23:58:20Z")])]

theorem deployed_omits {optional : String → String → Value → Prop}
    (may : ∀ place name v, MayLack place name v → optional place name v) :
    Value.Omits optional "" (codec.write deployed)
      (.object (("id", .string "9") :: deployedMembers)) := by
  have left : (codec.write deployed).without holdsDefault "" =
      .object (("id", .string "9") :: deployedMembers) := rfl
  rw [← left]
  refine Value.omits_without (fun place name v dropped => ?_) "" _
  exact may place name v (mayLack_of_holdsDefault place name v dropped)

theorem deployed_omits_id : Value.Omits (Named MayLack Needs) "" (codec.write deployed)
    (.object deployedMembers) := by
  have left : (codec.write deployed).without (fun place name v =>
      holdsDefault place name v || (place == "" && name == "id")) "" = .object deployedMembers :=
    rfl
  rw [← left]
  refine Value.omits_without (fun place name v dropped => ?_) "" _
  rcases Bool.or_eq_true_iff.1 dropped with default | id
  · exact .inl (mayLack_of_holdsDefault place name v default)
  · obtain ⟨rfl, rfl⟩ : place = "" ∧ name = "id" := by simpa using id
    exact .inr ⟨by decide, rfl⟩

theorem not_deployed_omits :
    ¬ Value.Omits MayLack "" (codec.write deployed) (.object deployedMembers) := by
  rintro ⟨members, ⟨lack, -⟩ | ⟨v, rest, -, -, rfl⟩, same⟩
  · cases lack.2
  · have first : "project" = "id" :=
      congrArg Prod.fst (List.head_eq_of_cons_eq (Value.object.inj same))
    exact absurd first (by decide)

/-- Without all its defaults the build is read as before, and without its identifier not at all. -/
theorem ofJson_deployed :
    ofJson (Value.object (("id", .string "9") :: deployedMembers)).write =
      .ok deployed.withDefaults ∧
    ∃ e, ofJson (Value.object deployedMembers).write = .error e := by
  have shallow : (codec.write deployed).depth < 128 := by decide
  obtain ⟨whole, read, -⟩ := ofJson_omit deployed shallow
    (deployed_omits fun _ _ _ => .inl) (Value.spelled_wire _)
  have refused := (ofJson_omit deployed shallow deployed_omits_id (Value.spelled_wire _)).2.2
  exact ⟨(read (deployed_omits fun _ _ _ => id)).trans whole, refused not_deployed_omits⟩

end Recording

end BuildCapture
