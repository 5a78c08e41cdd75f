import BuildCapture.Proofs.Json.Fields
import BuildCapture.Proofs.Report.Lawful
set_option autoImplicit false

/-!
Reports of kinds that nobody summarizes, and the order of reports. Whatever such a report holds, it
is read as an unknown one. A report of a known kind is known by its document already, so the reports
of one kind stay the same, in the same order, however the others are moved (`read_rearranged`).
-/

namespace BuildCapture

namespace Json

namespace Document

def string? : Document → Option String
  | .string l => l.string?
  | _ => none

def knownKind? (d : Document) : Option ReportKind :=
  d.string?.bind fun name => ReportKind.named.lookup name

def isKindMember (m : Literal × Document) : Bool := m.1.string? = some "kind"

def reportKind? : Document → Option ReportKind
  | .object members => (members.find? isKindMember).bind fun m => m.2.knownKind?
  | .array (first :: _) => first.knownKind?
  | _ => none

/-- A report of a kind that is not known, with any other members. -/
inductive Foreign : Document → Prop where
  | intro {before after : List (Literal × Document)} {key kind : Literal} {name : String}
    (named : key.read = .ok "kind") (read : kind.read = .ok name)
    (unknown : name ∉ ReportKind.all.map ReportKind.name)
    (once : ∀ m ∈ before ++ after, m.1.read ≠ .ok "kind")
    (clean : Clean (.object (before ++ (key, .string kind) :: after))) :
    Foreign (.object (before ++ (key, .string kind) :: after))

/-- Reports with any number of foreign ones among them, where those of one known kind have kept
their order. -/
def Rearranged (items items' : List Document) : Prop :=
  ∃ foreign, (∀ d ∈ foreign, d.Foreign ∧ d.depth + 2 < 128) ∧ items'.Perm (items ++ foreign) ∧
    ∀ kind, items'.filter (·.reportKind? = some kind) = items.filter (·.reportKind? = some kind)

end Document

end Json

namespace Report

open Json Document

theorem string?_of_found {d : Document} {s : String} (h : d.tree.found = .ok (.string s)) :
    d.string? = some s := by
  obtain ⟨l, rfl, read⟩ := isText_of_found h
  exact Literal.string?_eq_some_iff.2 read

theorem readKind_tree {d : Document} {kind : Option ReportKind}
    (h : readKind d.tree = .ok kind) : kind = d.knownKind? := by
  obtain ⟨found, read, h⟩ := bind_eq_ok_iff.1 h
  split at h
  case h_1 name =>
    cases h
    rw [knownKind?, string?_of_found (ok_of_ofFault read)]
    rfl
  case h_2 => cases h

/-- Of the members that are read, the first one called `kind` tells the kind. -/
theorem readKindMember_trees {room : Nat} {members : List (Literal × Document)}
    {kind found : Option (Option ReportKind)}
    (h : readKindMember room kind (memberTrees members) = .ok found) :
    found = kind.or ((members.find? isKindMember).map fun m => m.2.knownKind?) := by
  induction members generalizing kind with
  | nil =>
    cases h
    exact (Option.or_none).symm
  | cons m members ih =>
    obtain ⟨key, d⟩ := m
    obtain ⟨name, named, step⟩ := bind_eq_ok_iff.1 h
    have read : key.read = .ok name := ok_of_ofFault named
    have called : key.string? = some name := by rw [Literal.string?, read]; rfl
    split at step
    case isTrue same =>
      have first : isKindMember (key, d) = true := by simp [isKindMember, called, same]
      rw [List.find?_cons_of_pos first]
      cases kind with
      | some kind => cases step
      | none =>
        obtain ⟨known, readKind, later⟩ := bind_eq_ok_iff.1 step
        rw [ih later, readKind_tree readKind]
        rfl
    case isFalse other =>
      have passed : ¬ isKindMember (key, d) = true := by simp [isKindMember, called, other]
      rw [List.find?_cons_of_neg passed]
      obtain ⟨taken, -, later⟩ := bind_eq_ok_iff.1 step
      exact ih later

theorem kind?_of_readAs {fields : {α : Type} → Record α → Except Error α} {kind : ReportKind}
    {r : Report} (h : readAs fields kind = .ok r) : r.kind? = some kind := by
  cases kind <;> obtain ⟨a, -, rfl⟩ := map_eq_ok_iff.1 h <;> rfl

theorem kind?_of_read_array {frame : Frame} {items : List Document} {r : Report}
    (h : codec.read frame (Document.array items).tree = .ok r) :
    r.kind? = (Document.array items).reportKind? := by
  obtain ⟨inner, -, h⟩ := bind_eq_ok_iff.1 h
  cases items with
  | nil => cases h
  | cons first rest =>
    obtain ⟨kind, read, h⟩ := bind_eq_ok_iff.1 h
    obtain ⟨taken, -, h⟩ := bind_eq_ok_iff.1 h
    obtain ⟨closed, -, h⟩ := bind_eq_ok_iff.1 h
    rw [Document.reportKind?, ← readKind_tree read]
    cases kind with
    | none =>
      dsimp only at h
      split at h
      case isTrue =>
        cases h
        rfl
      case isFalse => cases h
    | some kind => exact kind?_of_readAs h

theorem kind?_of_read_object {frame : Frame} {members : List (Literal × Document)} {r : Report}
    (h : codec.read frame (Document.object members).tree = .ok r) :
    r.kind? = (Document.object members).reportKind? := by
  obtain ⟨inner, -, h⟩ := bind_eq_ok_iff.1 h
  obtain ⟨found, read, h⟩ := bind_eq_ok_iff.1 h
  obtain ⟨closed, -, h⟩ := bind_eq_ok_iff.1 h
  have kind := readKindMember_trees read
  rw [Option.none_or] at kind
  rw [Document.reportKind?]
  cases named : members.find? isKindMember with
  | none =>
    rw [kind, named] at h
    cases h
  | some m =>
    rw [kind, named] at h
    show _ = m.2.knownKind?
    cases known : m.2.knownKind? with
    | none =>
      simp only [Option.map_some, known] at h
      cases h
      rfl
    | some kind =>
      simp only [Option.map_some, known] at h
      exact kind?_of_readAs h

theorem kind?_of_read {frame : Frame} {d : Document} {r : Report}
    (h : codec.read frame d.tree = .ok r) : r.kind? = d.reportKind? := by
  cases d with
  | null => cases h
  | bool b => cases b <;> cases h
  | number n =>
    obtain ⟨found, -, h⟩ := bind_eq_ok_iff.1 h
    cases h
  | string l =>
    obtain ⟨found, -, h⟩ := bind_eq_ok_iff.1 h
    cases h
  | array items => exact kind?_of_read_array h
  | object members => exact kind?_of_read_object h

theorem passed_of_clean {room : Nat} {members : List (Literal × Document)}
    (once : ∀ m ∈ members, m.1.read ≠ .ok "kind")
    (clean : ∀ m ∈ members, Paired (m.1.map Mark.piece) ∧ m.2.Clean)
    (shallow : ∀ m ∈ members, m.2.depth ≤ room) :
    ∀ m ∈ memberTrees members, (∃ name, m.1.read = .ok name ∧ name ≠ "kind") ∧
      m.2.take room = .ok () := by
  rw [memberTrees_eq_map]
  intro m hm
  obtain ⟨member, mem, rfl⟩ := List.mem_map.1 hm
  obtain ⟨paired, clean⟩ := clean member mem
  obtain ⟨name, read⟩ := Literal.exists_read paired
  exact ⟨⟨name, read, fun same => once member mem (same ▸ read)⟩,
    take_tree member.2 clean (shallow member mem)⟩

theorem lookup_of_not_mem {name : String} (h : name ∉ ReportKind.all.map ReportKind.name) :
    ReportKind.named.lookup name = none := by
  refine List.lookup_eq_none_iff.2 fun p hp => ?_
  obtain ⟨kind, mem, rfl⟩ := List.mem_map.1 hp
  have ne : name ≠ kind.name := fun same => h (same ▸ List.mem_map_of_mem mem)
  simpa using ne

theorem read_foreign {frame : Frame} {d : Document} (foreign : d.Foreign)
    (shallow : d.depth ≤ frame.room) : codec.read frame d.tree = .ok .unknown := by
  cases foreign with
  | @intro before after key kind name named read unknown once clean =>
    obtain ⟨inner, entered, room⟩ := Frame.enter_of_lt shallow
    obtain ⟨roomBefore, roomAfter⟩ := List.forall_mem_append.1 (membersDepth_le_iff.1 room)
    obtain ⟨cleanBefore, cleanAfter⟩ := List.forall_mem_append.1 (membersClean_iff.1 clean)
    obtain ⟨onceBefore, onceAfter⟩ := List.forall_mem_append.1 once
    have passedBefore := passed_of_clean onceBefore cleanBefore roomBefore
    have passedAfter := passed_of_clean onceAfter (List.forall_mem_cons.1 cleanAfter).2
      (List.forall_mem_cons.1 roomAfter).2
    have others : readKindMember inner.room (some none) (memberTrees after) = .ok (some none) := by
      have read := readKindMember_append passedAfter (some none) []
      rwa [List.append_nil] at read
    have kindRead : readKind (tree (.string kind)) = .ok none := by
      simp only [readKind, tree, Tree.found, read, Except.map, Scalar.found, Codec.ofFault_ok, bind,
        Except.bind, lookup_of_not_mem unknown]
    rw [tree, memberTrees_append]
    simp only [codec, entered, readMembers, bind, Except.bind,
      readKindMember_append passedBefore]
    simp only [memberTrees, readKindMember, named, kindRead, others, Codec.ofFault_ok, bind,
      Except.bind, if_true, Option.isSome_none, Bool.false_eq_true, if_false]
    rfl

theorem filter_map_kind {frame : Frame} {g : Document → Report} {items : List Document}
    (h : ∀ d ∈ items, codec.read frame d.tree = .ok (g d)) (kind : ReportKind) :
    (items.map g).filter (·.kind? = some kind) =
      (items.filter (·.reportKind? = some kind)).map g := by
  rw [List.filter_map]
  refine congrArg (List.map g) (List.filter_congr fun d hd => ?_)
  simp only [Function.comp_apply, kind?_of_read (h d hd)]

/-- Rearranged reports are read where they were before, and there are the same ones of each known
kind in the same order. -/
theorem read_rearranged {frame : Frame} (room : frame.room = 126) {items items' : List Document}
    (rearranged : Rearranged items items') {reports : List Report}
    (read : codec.list.read frame (tree (.array items)) = .ok reports) :
    ∃ reports', codec.list.read frame (tree (.array items')) = .ok reports' ∧
      ∀ kind, reports'.filter (·.kind? = some kind) = reports.filter (·.kind? = some kind) := by
  obtain ⟨foreign, added, moved, kept⟩ := rearranged
  rw [tree, itemTrees_eq_map] at read
  obtain ⟨inner, entered, read⟩ := bind_eq_ok_iff.1 read
  obtain ⟨found, readItems, same⟩ := bind_eq_ok_iff.1 read
  cases same
  have innerRoom : inner.room = 125 := by
    obtain ⟨room, taken⟩ := frame
    subst room
    cases entered
    rfl
  let g (d : Document) : Report := (codec.read inner d.tree).toOption.getD .unknown
  have readAll (d : Document) (hd : d ∈ items ++ foreign) :
      codec.read inner d.tree = .ok (g d) := by
    have read : ∃ r, codec.read inner d.tree = .ok r := by
      rcases List.mem_append.1 hd with hd | hd
      · exact exists_mapM_iff.1 ⟨_, readItems⟩ d.tree (List.mem_map_of_mem hd)
      · obtain ⟨isForeign, shallow⟩ := added d hd
        exact ⟨.unknown, read_foreign isForeign (by omega)⟩
    obtain ⟨r, read⟩ := read
    simp [g, read, Except.toOption]
  have before : ∀ d ∈ items, codec.read inner d.tree = .ok (g d) := fun d hd =>
    readAll d (List.mem_append_left _ hd)
  have after : ∀ d ∈ items', codec.read inner d.tree = .ok (g d) := fun d hd =>
    readAll d (moved.mem_iff.1 hd)
  obtain rfl : reports = items.map g := by
    rw [Codec.mapM_map_eq_map before] at readItems
    exact (Except.ok.inj readItems).symm
  refine ⟨items'.map g, ?_, fun kind => ?_⟩
  · rw [tree, itemTrees_eq_map]
    simp only [Codec.list, entered, bind, Except.bind, Codec.mapM_map_eq_map after]
    rfl
  · rw [filter_map_kind after, filter_map_kind before, kept]

end Report

end BuildCapture
