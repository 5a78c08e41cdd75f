import BuildCapture.Proofs.Json.Accepted
import BuildCapture.Proofs.Json.Record
import Mathlib.Data.List.Forall2
import Mathlib.Data.List.Pairwise
set_option autoImplicit false

/-!
Documents that are read alike. A codec respects a relation of documents if it reads both of two
related ones or neither, and reads them as the same value (`Codec.Respects`). Sets of names respect
the order and the number of their items, and maps the order of their members; a record respects
whatever its fields do.
-/

namespace BuildCapture.Json

/-- Outcomes that are the same value or both failures. -/
def Agree {ε α : Type} (x y : Except ε α) : Prop := ∀ a, x = .ok a ↔ y = .ok a

namespace Agree

variable {ε α β : Type} {x y : Except ε α}

theorem refl (x : Except ε α) : Agree x x := fun _ => Iff.rfl

theorem bind_of_ok (h : Agree x y) {f g : α → Except ε β}
    (later : ∀ a, x = .ok a → Agree (f a) (g a)) : Agree (x >>= f) (y >>= g) := by
  intro b
  rw [bind_eq_ok_iff, bind_eq_ok_iff]
  refine exists_congr fun a => ?_
  rw [← h a]
  exact and_congr_right fun ok => later a ok b

theorem bind (h : Agree x y) {f g : α → Except ε β} (later : ∀ a, Agree (f a) (g a)) :
    Agree (x >>= f) (y >>= g) := h.bind_of_ok fun a _ => later a

theorem map (h : Agree x y) (f : α → β) : Agree (x.map f) (y.map f) := by
  intro b
  rw [map_eq_ok_iff, map_eq_ok_iff]
  exact exists_congr fun a => and_congr_left' (h a)

theorem ofFault {x y : Except Fault α} (h : Agree x y) :
    Agree (Json.ofFault x) (Json.ofFault y) := by
  intro a
  rw [Json.ofFault, Json.ofFault, mapError_eq_ok_iff, mapError_eq_ok_iff]
  exact h a

theorem of_error {e e' : ε} : Agree (.error e : Except ε α) (.error e') := fun _ => ⟨nofun, nofun⟩

end Agree

namespace Document

def Apart (m m' : Literal × Document) : Prop := ∀ name, m.1.read = .ok name → m'.1.read ≠ .ok name

instance : Std.Symm Apart := ⟨fun _ _ apart name read read' => apart name read' read⟩

/-- Objects of the same members under names of their own, in any order. -/
inductive SameMembers : Document → Document → Prop where
  | object {members members' : List (Literal × Document)} (apart : members.Pairwise Apart)
    (perm : members'.Perm members) : SameMembers (.object members) (.object members')

/-- Arrays of the same items, in any order and any number. -/
inductive SameItems : Document → Document → Prop where
  | array {items items' : List Document} (same : ∀ d, d ∈ items' ↔ d ∈ items) :
    SameItems (.array items) (.array items')

theorem SameMembers.symm {d d' : Document} (h : SameMembers d d') : SameMembers d' d := by
  obtain ⟨apart, perm⟩ := h
  exact .object ((perm.symm.pairwise_iff (Std.Symm.symm _ _)).1 apart) perm.symm

theorem SameItems.symm {d d' : Document} (h : SameItems d d') : SameItems d' d := by
  obtain ⟨same⟩ := h
  exact .array fun d => (same d).symm

theorem eq_of_apart {members : List (Literal × Document)} (apart : members.Pairwise Apart)
    {m m' : Literal × Document} (hm : m ∈ members) (hm' : m' ∈ members) {name : String}
    (read : m.1.read = .ok name) (read' : m'.1.read = .ok name) : m = m' := by
  by_contra ne
  exact apart.forall hm hm' ne name read read'

inductive ItemsRelated (rel : Document → Document → Prop) : Document → Document → Prop where
  | array {items items' : List Document}
    (related : List.Forall₂ (fun d d' => d' = d ∨ rel d d') items items') :
    ItemsRelated rel (.array items) (.array items')

def MemberRelated (rel : String → Document → Document → Prop) (m m' : Literal × Document) : Prop :=
  m' = m ∨ ∃ name, m.1.read = .ok name ∧ m'.1 = m.1 ∧ rel name m.2 m'.2

def PlacesRelated (rel : String → Document → Document → Prop) :
    List String → List Document → List Document → Prop
  | name :: names, d :: items, items' =>
    ∃ d' rest, (d' = d ∨ rel name d d') ∧ PlacesRelated rel names items rest ∧ items' = d' :: rest
  | _, items, items' => items' = items

/-- Documents of a record, as an object or an array, whose fields are the same or related. -/
inductive FieldsRelated (rel : String → Document → Document → Prop) (names : List String) :
    Document → Document → Prop where
  | object {members members' : List (Literal × Document)}
    (related : List.Forall₂ (MemberRelated rel) members members') :
    FieldsRelated rel names (.object members) (.object members')
  | array {items items' : List Document} (related : PlacesRelated rel names items items') :
    FieldsRelated rel names (.array items) (.array items')

/-- Members that are told by their names are the ones that are related. -/
theorem related_filter {rel : String → Document → Document → Prop}
    {members members' : List (Literal × Document)}
    (related : List.Forall₂ (MemberRelated rel) members members') (p : Literal → Bool) :
    List.Forall₂ (MemberRelated rel) (members.filter (p ·.1)) (members'.filter (p ·.1)) := by
  induction related with
  | nil => exact .nil
  | @cons m m' members members' first _ ih =>
    have key : m'.1 = m.1 := by
      rcases first with rfl | ⟨name, -, key, -⟩
      · rfl
      · exact key
    rw [List.filter_cons, List.filter_cons, key]
    split
    case isTrue => exact .cons first ih
    case isFalse => exact ih

theorem filter_memberTrees (members : List (Literal × Document)) (names : List String) :
    (memberTrees members).filter (fun m => !m.1.isOneOf names) =
      memberTrees (members.filter fun m => !(Key.mk m.1.read (.ok ())).isOneOf names) := by
  rw [memberTrees_eq_map, memberTrees_eq_map, List.filter_map]
  rfl

mutual

theorem skip_tree (d : Document) : d.tree.skip = .ok () := by
  match d with
  | .null => rfl
  | .bool true | .bool false => rfl
  | .number n => rfl
  | .string l => rfl
  | .array items =>
    rw [tree, Tree.skip, skipItems_trees items]
    rfl
  | .object members =>
    rw [tree, Tree.skip, skipMembers_trees members]
    rfl

theorem skipItems_trees (items : List Document) : Tree.skipItems (itemTrees items) = .ok () := by
  match items with
  | [] => rfl
  | d :: rest =>
    rw [itemTrees, Tree.skipItems, skip_tree d]
    exact skipItems_trees rest

theorem skipMembers_trees (members : List (Literal × Document)) :
    Tree.skipMembers (memberTrees members) = .ok () := by
  match members with
  | [] => rfl
  | (key, d) :: rest =>
    rw [memberTrees, Tree.skipMembers]
    simp only [bind, Except.bind, skip_tree d]
    exact skipMembers_trees rest

end

theorem takeItems_eq_ok_iff {room : Nat} {items : List Document} :
    Tree.takeItems room (itemTrees items) = .ok () ↔ ∀ d ∈ items, d.tree.take room = .ok () := by
  induction items with
  | nil => simp [itemTrees, Tree.takeItems]
  | cons d items ih =>
    rw [itemTrees, Tree.takeItems, bind_eq_ok_iff, List.forall_mem_cons, ← ih]
    exact ⟨fun ⟨_, first, later⟩ => ⟨first, later⟩, fun ⟨first, later⟩ => ⟨(), first, later⟩⟩

theorem SameItems.agree_take {d d' : Document} (h : SameItems d d') (room : Nat) :
    Agree (d.tree.take room) (d'.tree.take room) := by
  obtain ⟨same⟩ := h
  intro a
  rw [tree, tree, Tree.take, Tree.take]
  split
  case isTrue => exact Iff.rfl
  case isFalse =>
    refine Agree.bind (fun _ => ?_) (fun _ => .refl _) a
    rw [takeItems_eq_ok_iff, takeItems_eq_ok_iff]
    simp only [same]

end Document

namespace Codec

open Document

variable {α : Type} {c : Codec α} {rel : Document → Document → Prop}

/-- Of two related documents both are read or neither, and both as the same value. -/
def Respects (c : Codec α) (rel : Document → Document → Prop) : Prop :=
  ∀ frame d d', rel d d' → Agree (c.read frame d.tree) (c.read frame d'.tree)

theorem respects_false (c : Codec α) : c.Respects fun _ _ => False := fun _ _ _ => False.elim

theorem Respects.of_eq_or (h : c.Respects rel) (frame : Frame) {d d' : Document}
    (related : d' = d ∨ rel d d') : Agree (c.read frame d.tree) (c.read frame d'.tree) := by
  rcases related with rfl | related
  · exact .refl _
  · exact h frame d d' related

def Solid (rel : Document → Document → Prop) : Prop :=
  ∀ d d', rel d d' → startsNull d.tree = false ∧ startsNull d'.tree = false

theorem Respects.option (h : c.Respects rel) (solid : Solid rel) : c.option.Respects rel := by
  intro frame d d' related
  obtain ⟨first, second⟩ := solid d d' related
  simp only [Codec.option, first, second, Bool.false_eq_true, if_false]
  exact (h frame d d' related).map some

theorem agree_mapM {f : Tree → Except Error α} {items items' : List Document}
    (h : List.Forall₂ (fun d d' => Agree (f d.tree) (f d'.tree)) items items') :
    Agree ((itemTrees items).mapM f) ((itemTrees items').mapM f) := by
  induction h with
  | nil => exact .refl _
  | cons first _ ih =>
    rw [itemTrees, itemTrees, List.mapM_cons, List.mapM_cons]
    exact first.bind fun a => ih.bind fun as => .refl _

theorem Respects.list (h : c.Respects rel) : c.list.Respects (ItemsRelated rel) := by
  rintro frame _ _ ⟨related⟩
  refine (Agree.refl frame.enter).bind fun inner => Agree.bind ?_ fun as => .refl _
  exact agree_mapM (related.imp fun d d' => h.of_eq_or inner)

theorem read_nameSet_of_same {frame : Frame} {d d' : Document} (h : SameItems d d') {s : NameSet}
    (read : nameSet.read frame d.tree = .ok s) : nameSet.read frame d'.tree = .ok s := by
  obtain @⟨items, items', same⟩ := h
  obtain ⟨names, readNames, rfl⟩ := map_eq_ok_iff.1 read
  obtain ⟨inner, entered, readNames⟩ := bind_eq_ok_iff.1 readNames
  obtain ⟨found, readItems, sameFound⟩ := bind_eq_ok_iff.1 readNames
  cases sameFound
  rw [itemTrees_eq_map] at readItems
  have trees (t : Tree) : t ∈ items'.map tree ↔ t ∈ items.map tree := by
    simp only [List.mem_map, same]
  obtain ⟨names', readItems', sameNames⟩ := exists_mapM_of_mem_iff trees readItems
  rw [tree, itemTrees_eq_map]
  simp only [nameSet, Codec.list, entered, readItems', bind, Except.bind]
  exact congrArg Except.ok (NameSet.ofList_congr sameNames)

theorem nameSet_respects : nameSet.Respects SameItems := fun _ _ _ related _ =>
  ⟨read_nameSet_of_same related, read_nameSet_of_same related.symm⟩

theorem single_of_apart {inner : Frame} {members : List (Literal × Document)}
    (apart : members.Pairwise Apart) {entries : List (String × α)}
    (read : (memberTrees members).mapM (readEntry c inner) = .ok entries) :
    ∀ e ∈ entries, ∀ e' ∈ entries, e.1 = e'.1 → e = e' := by
  rw [memberTrees_eq_map] at read
  have found (e : String × α) (he : e ∈ entries) :
      ∃ m ∈ members, m.1.read = .ok e.1 ∧
        readEntry c inner (⟨m.1.read, .ok ()⟩, m.2.tree) = .ok e := by
    obtain ⟨t, ht, readEntry⟩ := (mem_iff_of_mapM read).1 he
    obtain ⟨m, hm, rfl⟩ := List.mem_map.1 ht
    obtain ⟨name, named, rest⟩ := bind_eq_ok_iff.1 readEntry
    obtain ⟨value, -, same⟩ := bind_eq_ok_iff.1 rest
    cases same
    exact ⟨m, hm, ok_of_ofFault named, readEntry⟩
  intro e he e' he' same
  obtain ⟨m, hm, named, readEntry⟩ := found e he
  obtain ⟨m', hm', named', readEntry'⟩ := found e' he'
  obtain rfl := eq_of_apart apart hm hm' named (same ▸ named')
  exact Except.ok.inj (readEntry.symm.trans readEntry')

theorem read_nameMap_of_same {frame : Frame} {d d' : Document} (h : SameMembers d d')
    {m : NameMap α} (read : (nameMap c).read frame d.tree = .ok m) :
    (nameMap c).read frame d'.tree = .ok m := by
  obtain @⟨members, members', apart, perm⟩ := h
  obtain ⟨inner, entered, read⟩ := bind_eq_ok_iff.1 read
  obtain ⟨entries, readMembers, same⟩ := bind_eq_ok_iff.1 read
  cases same
  have trees (t : Key × Tree) : t ∈ memberTrees members' ↔ t ∈ memberTrees members := by
    rw [memberTrees_eq_map, memberTrees_eq_map]
    exact (perm.map _).mem_iff
  obtain ⟨entries', readMembers', sameEntries⟩ := exists_mapM_of_mem_iff trees readMembers
  rw [tree]
  simp only [nameMap, entered, readMembers', bind, Except.bind]
  exact congrArg Except.ok (NameMap.ofList_congr (single_of_apart apart readMembers) sameEntries)

theorem nameMap_respects (c : Codec α) : (nameMap c).Respects SameMembers :=
  fun _ _ _ related _ => ⟨read_nameMap_of_same related, read_nameMap_of_same related.symm⟩

end Codec

namespace RecordFields

open Document (MemberRelated PlacesRelated)

def Respects (rel : String → Document → Document → Prop) : {β σ : Type} → RecordFields β σ → Prop
  | _, _, .nil => True
  | _, _, .cons field rest => field.codec.Respects (rel field.name) ∧ rest.Respects rel

section
variable {rel : String → Document → Document → Prop} {α β σ : Type}

@[simp] theorem respects_nil : RecordFields.nil.Respects rel := trivial

@[simp] theorem respects_cons (field : RecordField α) (rest : RecordFields β σ) :
    (RecordFields.cons field rest).Respects rel ↔
      field.codec.Respects (rel field.name) ∧ rest.Respects rel := Iff.rfl

variable {fs : RecordFields β σ} (h : fs.Respects rel) {frame : Frame}
include h

theorem agree_put {name : String} {d d' : Document} (related : rel name d d') (slots : σ) :
    Agree (fs.put frame name d.tree slots) (fs.put frame name d'.tree slots) := by
  induction fs with
  | nil => exact .refl _
  | cons field rest ih =>
    obtain ⟨slot, slots⟩ := slots
    rw [put, put]
    split
    case isTrue same =>
      split
      case isTrue => exact .refl _
      case isFalse => exact (h.1 frame d d' (same ▸ related)).bind fun a => .refl _
    case isFalse => exact (ih h.2 slots).bind fun found => .refl _

theorem agree_readMembers {members members' : List (Literal × Document)}
    (related : List.Forall₂ (MemberRelated rel) members members') (slots : σ) :
    Agree (fs.readMembers frame Tree.skip slots (Document.memberTrees members))
      (fs.readMembers frame Tree.skip slots (Document.memberTrees members')) := by
  induction related generalizing slots with
  | nil => exact .refl _
  | @cons m m' members members' first _ ih =>
    obtain ⟨key, d⟩ := m
    rcases first with rfl | ⟨name, named, sameKey, first⟩
    · refine (Agree.refl _).bind fun name => (Agree.refl _).bind fun found => ?_
      cases found with
      | some slots => exact ih slots
      | none => exact (Agree.refl _).bind fun _ => ih slots
    · obtain ⟨key', d'⟩ := m'
      obtain rfl : key' = key := sameKey
      simp only [Document.memberTrees, readMembers, named, Codec.ofFault_ok, bind, Except.bind]
      refine (agree_put h first slots).bind fun found => ?_
      cases found with
      | some slots => exact ih slots
      | none =>
        rw [Document.skip_tree, Document.skip_tree]
        exact ih slots

theorem agree_readItems {close : Close} {tooShort : Nat → Mismatch} {n : Nat}
    {items items' : List Document} (related : PlacesRelated rel fs.names items items') :
    Agree (fs.readItems frame close tooShort n (Document.itemTrees items))
      (fs.readItems frame close tooShort n (Document.itemTrees items')) := by
  induction fs generalizing n items items' with
  | nil =>
    obtain rfl : items' = items := related
    exact .refl _
  | cons field rest ih =>
    cases items with
    | nil =>
      obtain rfl : items' = [] := related
      exact .refl _
    | cons d items =>
      obtain ⟨d', items', first, related, rfl⟩ := related
      rw [Document.itemTrees, Document.itemTrees, readItems, readItems]
      exact (h.1.of_eq_or frame first).bind fun a => (ih h.2 related).bind fun found => .refl _

end

end RecordFields

namespace Record

open Document

variable {α : Type} {r : Record α} {rel : String → Document → Document → Prop}
  (h : r.fields.Respects rel) {frame : Frame}
include h

theorem agree_readMembers {members members' : List (Literal × Document)}
    (related : List.Forall₂ (MemberRelated rel) members members') :
    Agree (r.readMembers frame (memberTrees members) (.ok ()))
      (r.readMembers frame (memberTrees members') (.ok ())) :=
  (RecordFields.agree_readMembers h related _).bind fun _ => .refl _

theorem agree_readItems {items items' : List Document}
    (related : PlacesRelated rel r.fields.names items items') :
    Agree (r.readItems frame (itemTrees items) (.ok ()))
      (r.readItems frame (itemTrees items') (.ok ())) :=
  (RecordFields.agree_readItems h related).bind fun _ => .refl _

theorem codec_respects : r.codec.Respects (FieldsRelated rel r.fields.names) := by
  rintro frame _ _ (related | related)
  · exact (Agree.refl frame.enter).bind fun inner => agree_readMembers h related
  · exact (Agree.refl frame.enter).bind fun inner => agree_readItems h related

end Record

end BuildCapture.Json
