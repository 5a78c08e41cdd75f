import BuildCapture.Build.Codec
import BuildCapture.Proofs.Json.Agree
import BuildCapture.Proofs.Report.Foreign
set_option autoImplicit false

/-!
Documents of builds that differ in what has no order: in the order of variables, and in the order
and the number of the names in a set. Both of two such documents are read or neither, and both as
the same build (`Recording.agree_of_reordered`).
-/

namespace BuildCapture

open Json Document

namespace Report

/-- The members that hold a set of names. -/
def setNames : List String := ["remoteUrls", "imageIDs"]

def SetReordered (name : String) (d d' : Document) : Prop := name ∈ setNames ∧ SameItems d d'

def fieldNames : ReportKind → List String
  | .testResults => TestReport.record.fields.names
  | .sourceControl => GitReport.record.fields.names
  | .dependency => MavenReport.record.fields.names
  | .imageFingerprint => ImageReport.record.fields.names

/-- Documents of reports that are the same but for their sets. -/
inductive Reordered : Document → Document → Prop where
  | object {members members' : List (Literal × Document)}
    (related : List.Forall₂ (MemberRelated SetReordered) members members') :
    Reordered (.object members) (.object members')
  | array {first : Document} {kind : ReportKind} {items items' : List Document}
    (known : first.knownKind? = some kind)
    (related : PlacesRelated SetReordered (fieldNames kind) items items') :
    Reordered (.array (first :: items)) (.array (first :: items'))

theorem respects_of_not_mem {α : Type} {name : String} (h : name ∉ setNames) (c : Codec α) :
    c.Respects (SetReordered name) := fun _ _ _ related => absurd related.1 h

theorem nameSet_respects (name : String) : Codec.nameSet.Respects (SetReordered name) :=
  fun frame d d' related => Codec.nameSet_respects frame d d' related.2

theorem agree_readAs {kind : ReportKind} {read read' : {α : Type} → Record α → Except Error α}
    (h : ∀ {α : Type} (r : Record α), r.fields.Respects SetReordered →
      r.fields.names = fieldNames kind → Agree (read r) (read' r)) :
    Agree (readAs read kind) (readAs read' kind) := by
  cases kind with
  | testResults =>
    refine (h TestReport.record ?_ rfl).map Report.testResults
    simp [TestReport.record, respects_of_not_mem, setNames]
  | sourceControl =>
    refine (h GitReport.record ?_ rfl).map Report.sourceControl
    simp [GitReport.record, respects_of_not_mem, setNames, nameSet_respects]
  | dependency =>
    refine (h MavenReport.record ?_ rfl).map Report.dependency
    simp [MavenReport.record, respects_of_not_mem, setNames]
  | imageFingerprint =>
    refine (h ImageReport.record ?_ rfl).map Report.imageFingerprint
    simp [ImageReport.record, nameSet_respects]

theorem agree_readKindMember {room : Nat} {members members' : List (Literal × Document)}
    (related : List.Forall₂ (MemberRelated SetReordered) members members')
    (kind : Option (Option ReportKind)) :
    Agree (readKindMember room kind (memberTrees members))
      (readKindMember room kind (memberTrees members')) := by
  induction related generalizing kind with
  | nil => exact .refl _
  | @cons m m' members members' first _ ih =>
    obtain ⟨key, d⟩ := m
    rcases first with rfl | ⟨name, named, sameKey, set, same⟩
    · refine (Agree.refl _).bind fun name => ?_
      split
      case isTrue =>
        split
        case isTrue => exact .refl _
        case isFalse => exact (Agree.refl _).bind fun kind => ih _
      case isFalse => exact (Agree.refl _).bind fun _ => ih _
    · obtain ⟨key', d'⟩ := m'
      obtain rfl : key' = key := sameKey
      have other : name ≠ "kind" := by
        rintro rfl
        exact absurd set (by decide)
      simp only [memberTrees, readKindMember, named, Codec.ofFault_ok, bind, Except.bind,
        if_neg other]
      exact (same.agree_take room).ofFault.bind fun _ => ih _

theorem agree_takeItems {room : Nat} {names : List String} {items items' : List Document}
    (related : PlacesRelated SetReordered names items items') :
    Agree (Tree.takeItems room (itemTrees items)) (Tree.takeItems room (itemTrees items')) := by
  induction names generalizing items items' with
  | nil =>
    obtain rfl : items' = items := related
    exact .refl _
  | cons name names ih =>
    cases items with
    | nil =>
      obtain rfl : items' = [] := related
      exact .refl _
    | cons d items =>
      obtain ⟨d', items', first, related, rfl⟩ := related
      rw [itemTrees, itemTrees, Tree.takeItems, Tree.takeItems]
      refine Agree.bind ?_ fun _ => ih related
      rcases first with rfl | ⟨-, same⟩
      · exact .refl _
      · exact same.agree_take room

theorem agree_readMembers {frame : Frame} {members members' : List (Literal × Document)}
    (related : List.Forall₂ (MemberRelated SetReordered) members members') :
    Agree (readMembers frame (memberTrees members) (.ok ()))
      (readMembers frame (memberTrees members') (.ok ())) := by
  refine (agree_readKindMember related none).bind fun kind => (Agree.refl _).bind fun _ => ?_
  split
  case h_3 =>
    refine agree_readAs fun r respects _ => ?_
    rw [filter_memberTrees, filter_memberTrees]
    exact Record.agree_readMembers respects
      (related_filter related fun key => !(Key.mk key.read (.ok ())).isOneOf ["kind"])
  all_goals exact .refl _

theorem codec_respects : codec.Respects Reordered := by
  rintro frame _ _ (related | ⟨known, related⟩)
  · exact (Agree.refl frame.enter).bind fun inner => agree_readMembers related
  · refine (Agree.refl frame.enter).bind fun inner => (Agree.refl _).bind_of_ok fun kind read => ?_
    refine (agree_takeItems related).ofFault.bind fun _ => (Agree.refl _).bind fun _ => ?_
    obtain rfl : kind = some _ := (readKind_tree read).trans known
    refine agree_readAs fun r respects names => ?_
    exact Record.agree_readItems respects (names ▸ related)

end Report

namespace Recording

def VariablesReordered : String → Document → Document → Prop
  | "vars" => SameMembers
  | _ => fun _ _ => False

def ContributorReordered : Document → Document → Prop :=
  FieldsRelated VariablesReordered Contributor.record.fields.names

def FieldReordered (trigger : Document → Document → Prop) : String → Document → Document → Prop
  | "environment" | "buildVariables" => SameMembers
  | "sensitiveBuildVariables" => SameItems
  | "environments" => ItemsRelated ContributorReordered
  | "actions" => ItemsRelated Report.Reordered
  | "parent" => trigger
  | _ => fun _ _ => False

def fieldNames : List String := (record codec).fields.names

def ReorderedUpTo : Nat → Document → Document → Prop
  | 0 => FieldsRelated (FieldReordered fun _ _ => False) fieldNames
  | triggers + 1 => FieldsRelated (FieldReordered (ReorderedUpTo triggers)) fieldNames

/-- Documents of builds that are the same but for the order of variables, wherever they stand, and
for the order and the number of the names in sets. -/
def Reordered (d d' : Document) : Prop := ∃ triggers, ReorderedUpTo triggers d d'

theorem contributor_respects : Contributor.record.codec.Respects ContributorReordered :=
  Record.codec_respects ⟨Codec.nameMap_respects _, trivial⟩

theorem sameMembers_solid : Codec.Solid SameMembers := by
  rintro _ _ ⟨⟩
  exact ⟨rfl, rfl⟩

theorem fieldsRelated_solid {rel : String → Document → Document → Prop} {names : List String} :
    Codec.Solid (FieldsRelated rel names) := by
  rintro _ _ (_ | _) <;> exact ⟨rfl, rfl⟩

theorem record_respects {parent : Codec Recording} {trigger : Document → Document → Prop}
    (h : parent.Respects trigger) (solid : Codec.Solid trigger) :
    (record parent).codec.Respects (FieldsRelated (FieldReordered trigger) fieldNames) := by
  have fixed {α : Type} (c : Codec α) := c.respects_false
  have vars : Variables.codec.Respects SameMembers := Codec.nameMap_respects _
  have contributors := (contributor_respects.option fieldsRelated_solid).list
  exact Record.codec_respects (r := record parent) ⟨fixed _, fixed _, fixed _, fixed _, fixed _,
    fixed _, fixed _, fixed _, fixed _, fixed _, fixed _, Report.codec_respects.list,
    vars.option sameMembers_solid, vars, Codec.nameSet_respects, contributors,
    h.option solid, trivial⟩

theorem codecUpTo_respects (n triggers : Nat) :
    (codecUpTo n).Respects (ReorderedUpTo triggers) := by
  induction triggers generalizing n with
  | zero =>
    cases n with
    | zero => exact record_respects (Codec.respects_false _) fun _ _ => False.elim
    | succ n => exact record_respects (Codec.respects_false _) fun _ _ => False.elim
  | succ triggers ih =>
    have solid : Codec.Solid (ReorderedUpTo triggers) := by
      cases triggers <;> exact fieldsRelated_solid
    cases n with
    | zero => exact record_respects (fun _ _ _ _ => .of_error) solid
    | succ n => exact record_respects (ih n) solid

/-- Of the texts of two such documents both are read or neither, and both as the same build. -/
theorem agree_of_reordered {d d' : Document} {s s' : String} (h : Reordered d d')
    (text : d.Text s) (text' : d'.Text s') : Agree (ofJson s) (ofJson s') := by
  obtain ⟨triggers, h⟩ := h
  rw [ofJson, ofJson, codec.decode_text text, codec.decode_text text']
  exact (codecUpTo_respects 127 triggers .top d d' h).map withDefaults

end Recording

end BuildCapture
