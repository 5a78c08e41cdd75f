import BuildCapture.Proofs.Json.Agree
import BuildCapture.Proofs.Json.Focus
set_option autoImplicit false

/-!
What a document tells of a record, field by field. A field is told by the member of its name, or by
the item in its place where the fields stand in an array; or it is missing. Wherever a record is
read, each part of it is what the document tells of its field (`Record.told_of_read`), and an object
of members that are apart is read as the parts that it tells, in whatever order
(`Record.read_of_told`).
-/

namespace BuildCapture.Json

theorem Literal.string?_eq_some_iff {l : Literal} {s : String} :
    l.string? = some s ↔ l.read = .ok s := by
  rw [Literal.string?]
  cases l.read <;> simp [Except.toOption]

namespace Document

def member? (name : String) (members : List (Literal × Document)) : Option Document :=
  (members.find? fun m => m.1.string? = some name).map Prod.snd

/-- What the document of a record holds for a field. -/
def field? (name : String) (place : Nat) : Document → Option Document
  | .object members => member? name members
  | .array items => items[place]?
  | _ => none

section
variable {name : String} {key : Literal} {v : Document} {members : List (Literal × Document)}

theorem member?_cons_of_read (read : key.read = .ok name) :
    member? name ((key, v) :: members) = some v := by
  have named : key.string? = some name := Literal.string?_eq_some_iff.2 read
  rw [member?, List.find?_cons_of_pos (by simp [named])]
  rfl

theorem member?_cons_of_ne (other : key.read ≠ .ok name) :
    member? name ((key, v) :: members) = member? name members := by
  have named : key.string? ≠ some name := mt Literal.string?_eq_some_iff.1 other
  rw [member?, List.find?_cons_of_neg (by simp [named])]
  rfl

theorem member?_eq_none_iff :
    member? name members = none ↔ ∀ m ∈ members, m.1.read ≠ .ok name := by
  simp [member?, Literal.string?_eq_some_iff]

theorem exists_split_of_member? (h : member? name members = some v) :
    ∃ before key after, members = before ++ (key, v) :: after ∧ key.read = .ok name := by
  obtain ⟨⟨key, d⟩, found, rfl⟩ := Option.map_eq_some_iff.1 h
  obtain ⟨before, after, split⟩ := List.append_of_mem (List.mem_of_find?_eq_some found)
  have named := List.find?_some found
  exact ⟨before, key, after, split, Literal.string?_eq_some_iff.1 (by simpa using named)⟩

theorem member?_of_mem (apart : members.Pairwise Apart) (mem : (key, v) ∈ members)
    (read : key.read = .ok name) : member? name members = some v := by
  induction members with
  | nil => cases mem
  | cons m members ih =>
    obtain ⟨first, others⟩ := List.pairwise_cons.1 apart
    rcases List.mem_cons.1 mem with rfl | mem
    · exact member?_cons_of_read read
    · have other : m.1.read ≠ .ok name := fun same => first _ mem name same read
      rw [member?_cons_of_ne other]
      exact ih others mem

end

end Document

def RecordField.missing {α : Type} (field : RecordField α) : Document → Option α
  | .array _ => field.short
  | _ => field.absent

/-- What the document of a record tells of a field: the value that it holds, or the default. -/
def Document.Tells {α : Type} (frame : Frame) (d : Document) (field : RecordField α) (place : Nat)
    (a : α) : Prop :=
  match d.field? field.name place with
  | some v => field.codec.read frame v.tree = .ok a
  | none => field.missing d = some a

/-- The parts are what the document tells of the fields, the first of which stands in this place. -/
def RecordFields.Told (frame : Frame) (d : Document) :
    {β σ : Type} → RecordFields β σ → (place : Nat) → β → Prop
  | _, _, .nil, _, _ => True
  | _, _, .cons field rest, place, (a, others) =>
    d.Tells frame field place a ∧ rest.Told frame d (place + 1) others

namespace Focus

section
variable {α β σ : Type} {field : RecordField α} {fs : RecordFields β σ} (place : Focus field fs)

theorem slot_empty : place.slot fs.empty = none := by
  induction place with
  | here => rfl
  | there _ ih => exact ih

theorem slot_put {frame : Frame} {name : String} {t : Tree} (ne : name ≠ field.name)
    {slots found : σ} (h : fs.put frame name t slots = .ok (some found)) :
    place.slot found = place.slot slots := by
  induction place with
  | here =>
    obtain ⟨slot, slots⟩ := slots
    rw [RecordFields.put, if_neg ne] at h
    obtain ⟨put, -, same⟩ := bind_eq_ok_iff.1 h
    obtain ⟨others, -, rfl⟩ := Option.map_eq_some_iff.1 (Except.ok.inj same)
    rfl
  | there place ih =>
    obtain ⟨slot, slots⟩ := slots
    rw [RecordFields.put] at h
    split at h
    case isTrue =>
      split at h
      case isTrue => cases h
      case isFalse =>
        obtain ⟨a, -, same⟩ := bind_eq_ok_iff.1 h
        cases same
        rfl
    case isFalse =>
      obtain ⟨put, stored, same⟩ := bind_eq_ok_iff.1 h
      obtain ⟨others, rfl, rfl⟩ := Option.map_eq_some_iff.1 (Except.ok.inj same)
      exact ih stored

theorem slot_readMembers {frame : Frame} {other : Tree → Except Fault Unit}
    {members : List (Key × Tree)} (ne : ∀ m ∈ members, m.1.read ≠ .ok field.name)
    {slots found : σ} (h : fs.readMembers frame other slots members = .ok found) :
    place.slot found = place.slot slots := by
  induction members generalizing slots with
  | nil =>
    cases h
    rfl
  | cons m members ih =>
    obtain ⟨key, t⟩ := m
    obtain ⟨first, later⟩ := List.forall_mem_cons.1 ne
    obtain ⟨name, named, h⟩ := bind_eq_ok_iff.1 h
    obtain ⟨put, stored, h⟩ := bind_eq_ok_iff.1 h
    have otherName : name ≠ field.name := by
      rintro rfl
      exact first (ok_of_ofFault named)
    cases put with
    | some slots' =>
      rw [ih later h]
      exact place.slot_put otherName stored
    | none =>
      obtain ⟨passed, -, h⟩ := bind_eq_ok_iff.1 h
      exact ih later h

theorem finish_get {slots : σ} {parts : β} (h : fs.finish slots = .ok parts) :
    (place.slot slots).or field.absent = some (place.get parts) := by
  induction place with
  | @here _ _ rest =>
    obtain ⟨slot, slots⟩ := slots
    rw [RecordFields.finish] at h
    split at h
    case h_1 a held =>
      obtain ⟨others, -, same⟩ := bind_eq_ok_iff.1 h
      cases same
      exact held
    case h_2 => cases h
  | there place ih =>
    obtain ⟨slot, slots⟩ := slots
    rw [RecordFields.finish] at h
    split at h
    case h_1 =>
      obtain ⟨others, finished, same⟩ := bind_eq_ok_iff.1 h
      cases same
      exact ih finished
    case h_2 => cases h

theorem readMembers_tells (distinct : fs.names.Nodup) {frame : Frame}
    {other : Tree → Except Fault Unit} {members : List (Literal × Document)} {slots : σ}
    {parts : β}
    (read : fs.readMembers frame other fs.empty (Document.memberTrees members) = .ok slots)
    (finished : fs.finish slots = .ok parts) :
    (Document.object members).Tells frame field place.index (place.get parts) := by
  rw [Document.Tells, Document.field?]
  cases held : Document.member? field.name members with
  | some v =>
    obtain ⟨before, key, after, rfl, named⟩ := Document.exists_split_of_member? held
    rw [Document.memberTrees_append] at read
    exact (place.readMembers_set distinct named read finished).1
  | none =>
    have others : ∀ m ∈ Document.memberTrees members, m.1.read ≠ .ok field.name := by
      rw [Document.memberTrees_eq_map, List.forall_mem_map]
      exact Document.member?_eq_none_iff.1 held
    have kept := place.slot_readMembers others read
    have got := place.finish_get finished
    rwa [kept, place.slot_empty, Option.none_or] at got

theorem readItems_get {frame : Frame} {close : Close} {tooShort : Nat → Mismatch} {n : Nat}
    {items left : List Tree} {parts : β}
    (h : fs.readItems frame close tooShort n items = .ok (parts, left)) :
    match items[place.index]? with
    | some t => field.codec.read frame t = .ok (place.get parts)
    | none => field.short = some (place.get parts) := by
  induction place generalizing n items with
  | here =>
    cases items with
    | nil =>
      obtain ⟨closed, -, h⟩ := bind_eq_ok_iff.1 h
      split at h
      case h_1 a short =>
        obtain ⟨others, -, same⟩ := bind_eq_ok_iff.1 h
        cases same
        exact short
      case h_2 => cases h
    | cons t items =>
      obtain ⟨a, read, h⟩ := bind_eq_ok_iff.1 h
      obtain ⟨others, -, same⟩ := bind_eq_ok_iff.1 h
      cases same
      exact read
  | there place ih =>
    cases items with
    | nil =>
      obtain ⟨closed, -, h⟩ := bind_eq_ok_iff.1 h
      split at h
      case h_1 =>
        obtain ⟨others, readOthers, same⟩ := bind_eq_ok_iff.1 h
        cases same
        exact ih readOthers
      case h_2 => cases h
    | cons t items =>
      obtain ⟨a, -, h⟩ := bind_eq_ok_iff.1 h
      obtain ⟨others, readOthers, same⟩ := bind_eq_ok_iff.1 h
      cases same
      exact ih readOthers

theorem readItems_tells {frame : Frame} {close : Close} {tooShort : Nat → Mismatch} {n : Nat}
    {items : List Document} {left : List Tree} {parts : β}
    (h : fs.readItems frame close tooShort n (Document.itemTrees items) = .ok (parts, left)) :
    (Document.array items).Tells frame field place.index (place.get parts) := by
  have got := place.readItems_get h
  rw [Document.itemTrees_eq_map, List.getElem?_map] at got
  rw [Document.Tells, Document.field?]
  cases held : items[place.index]? with
  | some v =>
    rw [held] at got
    exact got
  | none =>
    rw [held] at got
    exact got

end

end Focus

namespace RecordFields

variable {frame : Frame} {d : Document} {β σ : Type} {fs : RecordFields β σ} {n : Nat} {parts : β}

theorem told_of_tells (h : ∀ {α : Type} {field : RecordField α} (place : Focus field fs),
    d.Tells frame field (n + place.index) (place.get parts)) : fs.Told frame d n parts := by
  induction fs generalizing n with
  | nil => trivial
  | cons field rest ih =>
    refine ⟨h .here, ih fun place => ?_⟩
    have tells := h (.there place)
    rwa [Focus.index, Nat.add_left_comm, Nat.add_comm] at tells

theorem Told.tells (h : fs.Told frame d n parts) {α : Type} {field : RecordField α}
    (place : Focus field fs) : d.Tells frame field (n + place.index) (place.get parts) := by
  induction place generalizing n with
  | here => exact h.1
  | there place ih =>
    have tells := ih h.2
    rwa [Nat.add_right_comm] at tells

end RecordFields

/-- Each part of a record that is read is what the document tells of its field. -/
theorem Record.told_of_read {γ : Type} {r : Record γ} (distinct : r.fields.names.Nodup)
    {frame : Frame} {d : Document} {x : γ} (read : r.codec.read frame d.tree = .ok x) :
    ∃ inner parts, frame.enter = .ok inner ∧ x = r.build parts ∧ r.fields.Told inner d 0 parts := by
  cases d with
  | null => cases read
  | bool b => cases b <;> cases read
  | number l =>
    obtain ⟨found, -, read⟩ := bind_eq_ok_iff.1 read
    cases read
  | string l =>
    obtain ⟨found, -, read⟩ := bind_eq_ok_iff.1 read
    cases read
  | object members =>
    obtain ⟨inner, slots, parts, entered, readMembers, -, finished, rfl⟩ :=
      codec_read_object_iff.1 read
    refine ⟨inner, parts, entered, rfl, RecordFields.told_of_tells fun place => ?_⟩
    rw [Nat.zero_add]
    exact place.readMembers_tells distinct readMembers finished
  | array items =>
    obtain ⟨inner, parts, entered, readItems, -, rfl⟩ := codec_read_array_iff.1 read
    refine ⟨inner, parts, entered, rfl, RecordFields.told_of_tells fun place => ?_⟩
    rw [Nat.zero_add]
    exact place.readItems_tells readItems

namespace RecordFields

/-- With these slots the members lead to the parts: a member of a field finds its slot empty and is
read as the part, and where there is none the slot holds the part or it is the default. -/
def Ready (frame : Frame) (members : List (Literal × Document)) :
    {β σ : Type} → RecordFields β σ → σ → β → Prop
  | _, _, .nil, _, _ => True
  | _, _, .cons field rest, (slot, slots), (a, others) =>
    (match Document.member? field.name members with
      | some v => slot = none ∧ field.codec.read frame v.tree = .ok a
      | none => slot.or field.absent = some a) ∧
    rest.Ready frame members slots others

section
variable {frame : Frame} {members : List (Literal × Document)} {β σ : Type}
  {fs : RecordFields β σ} {slots : σ} {parts : β}

theorem Told.ready {n : Nat} (h : fs.Told frame (.object members) n parts) :
    fs.Ready frame members fs.empty parts := by
  induction fs generalizing n with
  | nil => trivial
  | cons field rest ih =>
    obtain ⟨tells, later⟩ := h
    refine ⟨?_, ih later⟩
    rw [Document.Tells, Document.field?] at tells
    cases held : Document.member? field.name members with
    | some v =>
      rw [held] at tells
      exact ⟨rfl, tells⟩
    | none =>
      rw [held] at tells
      exact tells

theorem Ready.finish (h : fs.Ready frame [] slots parts) : fs.finish slots = .ok parts := by
  induction fs with
  | nil => rfl
  | cons field rest ih =>
    obtain ⟨slot, slots⟩ := slots
    obtain ⟨held, later⟩ := h
    have held : slot.or field.absent = some parts.1 := held
    rw [RecordFields.finish, held]
    simp only [bind, Except.bind, ih later]
    rfl

theorem Ready.skip {key : Literal} {v : Document} (none : ∀ name ∈ fs.names, key.read ≠ .ok name)
    (h : fs.Ready frame ((key, v) :: members) slots parts) :
    fs.Ready frame members slots parts := by
  induction fs with
  | nil => trivial
  | cons field rest ih =>
    obtain ⟨slot, slots⟩ := slots
    obtain ⟨first, others⟩ := List.forall_mem_cons.1 none
    obtain ⟨held, later⟩ := h
    rw [Document.member?_cons_of_ne first] at held
    exact ⟨held, ih others later⟩

theorem Ready.put (distinct : fs.names.Nodup) {key : Literal} {v : Document} {name : String}
    (named : key.read = .ok name) (last : ∀ m ∈ members, m.1.read ≠ .ok name)
    (h : fs.Ready frame ((key, v) :: members) slots parts) :
    ∃ found, fs.put frame name v.tree slots = .ok found ∧
      fs.Ready frame members (found.getD slots) parts := by
  induction fs with
  | nil => exact ⟨none, rfl, trivial⟩
  | cons field rest ih =>
    obtain ⟨slot, slots⟩ := slots
    obtain ⟨fresh, distinct⟩ := List.nodup_cons.1 distinct
    obtain ⟨held, later⟩ := h
    by_cases same : name = field.name
    · subst same
      rw [Document.member?_cons_of_read named] at held
      obtain ⟨rfl, read⟩ := held
      have others (other : String) (mem : other ∈ rest.names) : key.read ≠ .ok other := by
        rw [named]
        rintro ⟨⟩
        exact fresh mem
      -- The slot is still empty, and no later member has the name.
      refine ⟨some (some parts.1, slots), ?_, ?_, later.skip others⟩
      · simp only [RecordFields.put, if_true, Option.isSome_none, Bool.false_eq_true, if_false,
          bind, Except.bind, read]
        rfl
      · rw [Document.member?_eq_none_iff.2 last]
        rfl
    · have other : key.read ≠ .ok field.name := by
        rw [named]
        exact fun h => same (Except.ok.inj h)
      rw [Document.member?_cons_of_ne other] at held
      obtain ⟨found, stored, ready⟩ := ih distinct later
      refine ⟨found.map (slot, ·), ?_, ?_⟩
      · rw [RecordFields.put, if_neg same, stored]
        rfl
      · cases found with
        | none => exact ⟨held, ready⟩
        | some slots' => exact ⟨held, ready⟩

theorem Ready.readMembers (distinct : fs.names.Nodup)
    (named : ∀ m ∈ members, ∃ name, m.1.read = .ok name)
    (apart : members.Pairwise Document.Apart) (h : fs.Ready frame members slots parts) :
    ∃ found, fs.readMembers frame Tree.skip slots (Document.memberTrees members) = .ok found ∧
      fs.finish found = .ok parts := by
  -- Each member leaves slots that are ready for the members after it.
  induction members generalizing slots with
  | nil => exact ⟨slots, rfl, h.finish⟩
  | cons m members ih =>
    obtain ⟨key, v⟩ := m
    obtain ⟨⟨name, read⟩, named⟩ := List.forall_mem_cons.1 named
    obtain ⟨first, apart⟩ := List.pairwise_cons.1 apart
    obtain ⟨put, stored, ready⟩ := h.put distinct read fun m mem => first m mem name read
    obtain ⟨found, readOthers, finished⟩ := ih named apart ready
    refine ⟨found, ?_, finished⟩
    simp only [Document.memberTrees, RecordFields.readMembers, read, Codec.ofFault_ok, bind,
      Except.bind, stored]
    cases put with
    | some slots' => exact readOthers
    | none =>
      rw [Document.skip_tree]
      exact readOthers

end

end RecordFields

/-- An object of members that are apart is read as the record that it tells, in whatever order. -/
theorem Record.read_of_told {γ : Type} {r : Record γ} (distinct : r.fields.names.Nodup)
    {frame inner : Frame} (entered : frame.enter = .ok inner)
    {members : List (Literal × Document)} (named : ∀ m ∈ members, ∃ name, m.1.read = .ok name)
    (apart : members.Pairwise Document.Apart) {parts : r.Parts}
    (told : r.fields.Told inner (.object members) 0 parts) :
    r.codec.read frame (Document.object members).tree = .ok (r.build parts) := by
  obtain ⟨slots, readMembers, finished⟩ := told.ready.readMembers distinct named apart
  exact codec_read_object_iff.2 ⟨inner, slots, parts, entered, readMembers, rfl, finished, rfl⟩

namespace Document

def IsText (s : String) (d : Document) : Prop := ∃ l : Literal, d = .string l ∧ l.read = .ok s

def IsInt (n : Int) (d : Document) : Prop :=
  ∃ l : NumberLiteral, d = .number l ∧ l.parts.scalar = .ok (.int n)

def IsInstant (t : Instant) (d : Document) : Prop := ∃ s, d.IsText s ∧ Rfc3339.read s = .ok t

/-- Objects that hold one member of each wanted name, with a value of the sort that is wanted there,
and no others. -/
inductive HoldsOnly (wanted : List (String × (Document → Prop))) : Document → Prop where
  | object {members : List (Literal × Document)} (apart : members.Pairwise Apart)
    (known : ∀ m ∈ members, ∃ w ∈ wanted, m.1.read = .ok w.1 ∧ w.2 m.2)
    (held : ∀ w ∈ wanted, ∃ m ∈ members, m.1.read = .ok w.1 ∧ w.2 m.2) :
    HoldsOnly wanted (.object members)

theorem exists_isText (s : String) : ∃ d : Document, d.IsText s := by
  obtain ⟨l, -, read⟩ := exists_literal s
  exact ⟨.string l, l, rfl, read⟩

theorem exists_isInt {n : Int} (fits : FitsWord n) : ∃ d : Document, d.IsInt n := by
  obtain ⟨l, -, scalar⟩ := exists_number fits
  exact ⟨.number l, l, rfl, scalar⟩

theorem exists_holdsOnly {wanted : List (String × (Document → Prop))}
    (distinct : (wanted.map Prod.fst).Nodup) (each : ∀ w ∈ wanted, ∃ d, w.2 d) :
    ∃ d, HoldsOnly wanted d := by
  suffices ∃ members : List (Literal × Document), members.Pairwise Apart ∧
      (∀ m ∈ members, ∃ w ∈ wanted, m.1.read = .ok w.1 ∧ w.2 m.2) ∧
      ∀ w ∈ wanted, ∃ m ∈ members, m.1.read = .ok w.1 ∧ w.2 m.2 by
    obtain ⟨members, apart, known, held⟩ := this
    exact ⟨.object members, .object apart known held⟩
  induction wanted with
  | nil => exact ⟨[], .nil, nofun, nofun⟩
  | cons w wanted ih =>
    obtain ⟨fresh, distinct⟩ := List.nodup_cons.1 distinct
    obtain ⟨⟨d, sort⟩, each⟩ := List.forall_mem_cons.1 each
    obtain ⟨members, apart, known, held⟩ := ih distinct each
    obtain ⟨key, -, read⟩ := exists_literal w.1
    refine ⟨(key, d) :: members, List.pairwise_cons.2 ⟨?_, apart⟩, ?_, ?_⟩
    · intro m mem name named named'
      obtain ⟨w', mem', read', -⟩ := known m mem
      have same : w'.1 = w.1 :=
        (Except.ok.inj (read'.symm.trans named')).trans (Except.ok.inj (named.symm.trans read))
      exact fresh (same ▸ List.mem_map_of_mem mem')
    · refine List.forall_mem_cons.2 ⟨⟨w, List.mem_cons_self, read, sort⟩, fun m mem => ?_⟩
      obtain ⟨w', mem', found⟩ := known m mem
      exact ⟨w', List.mem_cons_of_mem _ mem', found⟩
    · refine List.forall_mem_cons.2 ⟨⟨_, List.mem_cons_self, read, sort⟩, fun w' mem => ?_⟩
      obtain ⟨m, mem', found⟩ := held w' mem
      exact ⟨m, List.mem_cons_of_mem _ mem', found⟩

namespace HoldsOnly

variable {wanted : List (String × (Document → Prop))} {d : Document} (h : d.HoldsOnly wanted)
include h

theorem tells {α : Type} {field : RecordField α} {sort : Document → Prop}
    (mem : (field.name, sort) ∈ wanted) {frame : Frame} {a : α}
    (reads : ∀ v : Document, sort v → field.codec.read frame v.tree = .ok a) (place : Nat) :
    d.Tells frame field place a := by
  obtain ⟨apart, -, held⟩ := h
  obtain ⟨⟨key, v⟩, among, read, sorted⟩ := held _ mem
  rw [Tells, field?, member?_of_mem apart among read]
  exact reads v sorted

theorem tells_absent {α : Type} {field : RecordField α} {a : α}
    (lacking : field.name ∉ wanted.map Prod.fst) (absent : field.absent = some a) (frame : Frame)
    (place : Nat) : d.Tells frame field place a := by
  obtain @⟨members, -, known, -⟩ := h
  have none : member? field.name members = none := by
    refine member?_eq_none_iff.2 fun m mem read => ?_
    obtain ⟨w, mem', read', -⟩ := known m mem
    have same : w.1 = field.name := Except.ok.inj (read'.symm.trans read)
    exact lacking (same ▸ List.mem_map_of_mem mem')
  rw [Tells, field?, none]
  exact absent

theorem read {γ : Type} {r : Record γ} (distinct : r.fields.names.Nodup) {frame inner : Frame}
    (entered : frame.enter = .ok inner) {parts : r.Parts} (told : r.fields.Told inner d 0 parts) :
    r.codec.read frame d.tree = .ok (r.build parts) := by
  obtain ⟨apart, known, -⟩ := h
  refine Record.read_of_told distinct entered (fun m mem => ?_) apart told
  obtain ⟨w, -, read, -⟩ := known m mem
  exact ⟨w.1, read⟩

end HoldsOnly

theorem isText_of_found {d : Document} {s : String} (h : d.tree.found = .ok (.string s)) :
    d.IsText s := by
  cases d with
  | null => cases h
  | bool b => cases b <;> cases h
  | number l =>
    obtain ⟨value, scalar, found⟩ := map_eq_ok_iff.1 h
    cases value with
    | string s => exact absurd scalar (l.parts.scalar_ne_string s)
    | _ => cases found
  | string l =>
    obtain ⟨value, scalar, found⟩ := map_eq_ok_iff.1 h
    obtain ⟨s, spelled, rfl⟩ := map_eq_ok_iff.1 scalar
    cases found
    exact ⟨l, rfl, spelled⟩
  | array items => cases h
  | object members => cases h

theorem startsNull_tree_iff {d : Document} : Codec.startsNull d.tree = true ↔ d = .null := by
  cases d with
  | null => simp [tree, Codec.startsNull, Leaf.ofScalar]
  | bool b => cases b <;> simp [tree, Codec.startsNull, Leaf.ofScalar]
  | number l =>
    obtain ⟨c, rest, text, first⟩ := l.exists_cons
    have letter : c ≠ 'n' := by
      rintro rfl
      exact absurd first (by decide)
    simp [tree, Codec.startsNull, text, letter]
  | string l => simp [tree, Codec.startsNull]
  | array items => simp [tree, Codec.startsNull]
  | object members => simp [tree, Codec.startsNull]

end Document

namespace Codec

variable {frame : Frame} {d : Document}

theorem string_read_iff {s : String} : string.read frame d.tree = .ok s ↔ d.IsText s := by
  constructor
  · intro read
    obtain ⟨found, shown, read⟩ := bind_eq_ok_iff.1 read
    split at read
    case h_1 =>
      cases read
      exact Document.isText_of_found (ok_of_ofFault shown)
    case h_2 => cases read
  · rintro ⟨l, rfl, spelled⟩
    simp only [Document.tree, string, Tree.found, spelled, bind, Except.bind]
    rfl

theorem int32_read_of_isInt {n : Int32} (h : d.IsInt n.toInt) :
    int32.read frame d.tree = .ok n := by
  obtain ⟨l, rfl, scalar⟩ := h
  have found : (Document.tree (.number l)).found = .ok (.int n.toInt) := by
    rw [Document.tree, Tree.found, scalar]
    rfl
  have within := And.intro n.minValue_le_toInt n.toInt_le
  simp only [int32, readInt, found, ofFault_ok, bind, Except.bind, if_pos within]
  simp [Except.map]

theorem instant_read_literal {literal : Literal} {s : String} {t : Instant}
    (spelled : literal.read = .ok s) (reads : Rfc3339.read s = .ok t) (frame : Frame) :
    instant.read frame (Document.tree (.string literal)) = .ok t := by
  have found : (Document.tree (.string literal)).found = .ok (.string s) := by
    rw [Document.tree, Tree.found, spelled]
    rfl
  simp only [instant, found, ofFault_ok, bind, Except.bind, reads]
  rfl

theorem instant_read_of_isInstant {t : Instant} (h : d.IsInstant t) :
    instant.read frame d.tree = .ok t := by
  obtain ⟨s, ⟨l, rfl, spelled⟩, reads⟩ := h
  exact instant_read_literal spelled reads frame

theorem option_read_tree {α : Type} {c : Codec α} {a : Option α}
    (h : c.option.read frame d.tree = .ok a) :
    d = .null ∧ a = none ∨ d ≠ .null ∧ ∃ b, a = some b ∧ c.read frame d.tree = .ok b := by
  by_cases null : d = .null
  · subst null
    cases h
    exact .inl ⟨rfl, rfl⟩
  · have starts : ¬ startsNull d.tree = true := mt Document.startsNull_tree_iff.1 null
    simp only [option, if_neg starts] at h
    obtain ⟨b, read, rfl⟩ := map_eq_ok_iff.1 h
    exact .inr ⟨null, b, rfl, read⟩

end Codec

theorem Document.Tells.option {α : Type} {c : Codec α} {frame : Frame} {d : Document}
    {name : String} {place : Nat} {a : Option α}
    (h : d.Tells frame (.defaulted name c.option none) place a) :
    (a = none ∧ ∀ v, d.field? name place = some v → v = .null) ∨
      ∃ v b, d.field? name place = some v ∧ v ≠ .null ∧ a = some b ∧
        c.read frame v.tree = .ok b := by
  have field : (RecordField.defaulted name c.option none).name = name := rfl
  rw [Document.Tells, field] at h
  cases held : d.field? name place with
  | none =>
    rw [held] at h
    have none : a = none := by
      cases d <;> exact (Option.some.inj h).symm
    exact .inl ⟨none, nofun⟩
  | some v =>
    rw [held] at h
    rcases Codec.option_read_tree h with ⟨null, none⟩ | ⟨present, b, some, read⟩
    · exact .inl ⟨none, fun v' held' => Option.some.inj held' ▸ null⟩
    · exact .inr ⟨v, b, rfl, present, some, read⟩

end BuildCapture.Json
