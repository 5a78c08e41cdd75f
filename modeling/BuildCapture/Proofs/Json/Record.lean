import BuildCapture.Proofs.Json.Lawful
set_option autoImplicit false

namespace BuildCapture.Json

namespace RecordFields

/-- Members that hold the values of the fields in their order. A field may be left out if it holds
the value that stands for a missing one. -/
def Hold (frame : Frame) : {β σ : Type} → RecordFields β σ → β → List (String × Value) → Prop
  | _, _, .nil, _, members => members = []
  | _, _, .cons field rest, (a, others), members =>
    (∃ v members', field.codec.read frame v.tree = .ok a ∧ rest.Hold frame others members' ∧
      members = (field.name, v) :: members') ∨
    (field.absent = some a ∧ rest.Hold frame others members)

theorem Hold.names {frame : Frame} {β σ : Type} {fs : RecordFields β σ} {b : β}
    {members : List (String × Value)} (h : fs.Hold frame b members) :
    ∀ m ∈ members, m.1 ∈ fs.names := by
  induction fs generalizing members with
  | nil =>
    obtain rfl : members = [] := h
    simp
  | cons field rest ih =>
    rcases h with ⟨v, members', -, held, rfl⟩ | ⟨-, held⟩
    · intro m hm
      rcases List.mem_cons.1 hm with rfl | hm
      · exact List.mem_cons_self
      · exact List.mem_cons_of_mem _ (ih held m hm)
    · exact fun m hm => List.mem_cons_of_mem _ (ih held m hm)

section
variable {α β σ : Type} (frame : Frame) (other : Tree → Except Fault Unit)

theorem readMembers_cons_of_ne (field : RecordField α) (rest : RecordFields β σ)
    {members : List (String × Value)} (ne : ∀ m ∈ members, m.1 ≠ field.name) (slot : Option α)
    (slots : σ) :
    (RecordFields.cons field rest).readMembers frame other (slot, slots)
        (Value.memberTrees members) =
      (rest.readMembers frame other slots (Value.memberTrees members)).map (slot, ·) := by
  induction members generalizing slots with
  | nil => rfl
  | cons m members ih =>
    obtain ⟨name, v⟩ := m
    have here : name ≠ field.name := ne (name, v) List.mem_cons_self
    have later : ∀ m ∈ members, m.1 ≠ field.name := fun m hm => ne m (List.mem_cons_of_mem _ hm)
    simp only [Value.memberTrees, readMembers, Key.ofString, Codec.ofFault_ok, bind, Except.bind,
      put, if_neg here]
    cases rest.put frame name v.tree slots with
    | error e => rfl
    | ok found =>
      cases found with
      | some slots => exact ih later slots
      | none =>
        cases other v.tree with
        | error fault => rfl
        | ok _ => exact ih later slots

theorem readMembers_cons_self (field : RecordField α) (rest : RecordFields β σ) (v : Value)
    (members : List (String × Value)) (slots : σ) :
    (RecordFields.cons field rest).readMembers frame other (none, slots)
        (Value.memberTrees ((field.name, v) :: members)) =
      field.codec.read frame v.tree >>= fun a =>
        (RecordFields.cons field rest).readMembers frame other (some a, slots)
          (Value.memberTrees members) := by
  simp only [Value.memberTrees, readMembers, Key.ofString, Codec.ofFault_ok, bind, Except.bind, put,
    if_true, Option.isSome_none, Bool.false_eq_true, if_false]
  cases field.codec.read frame v.tree <;> rfl

theorem put_of_not_mem {fs : RecordFields β σ} {name : String} (h : name ∉ fs.names) (t : Tree)
    (slots : σ) : fs.put frame name t slots = .ok none := by
  induction fs with
  | nil => rfl
  | cons field rest ih =>
    obtain ⟨slot, slots⟩ := slots
    simp only [names, List.mem_cons, not_or] at h
    rw [put, if_neg h.1, ih h.2]
    rfl

theorem readMembers_append_of_not_mem {fs : RecordFields β σ} {members : List (String × Value)}
    (h : ∀ m ∈ members, m.1 ∉ fs.names ∧ other m.2.tree = .ok ()) (slots : σ)
    (rest : List (Key × Tree)) :
    fs.readMembers frame other slots (Value.memberTrees members ++ rest) =
      fs.readMembers frame other slots rest := by
  induction members with
  | nil => rfl
  | cons m members ih =>
    obtain ⟨unknown, passed⟩ := h m List.mem_cons_self
    rw [Value.memberTrees, List.cons_append, readMembers]
    simp only [Key.ofString, Codec.ofFault_ok, bind, Except.bind, put_of_not_mem frame unknown,
      passed]
    exact ih fun m hm => h m (List.mem_cons_of_mem _ hm)

theorem readMembers_of_hold {fs : RecordFields β σ} (distinct : fs.names.Nodup) {b : β}
    {members : List (String × Value)} (h : fs.Hold frame b members) :
    ∃ slots, fs.readMembers frame other fs.empty (Value.memberTrees members) = .ok slots ∧
      fs.finish slots = .ok b := by
  induction fs generalizing members with
  | nil =>
    obtain rfl : members = [] := h
    exact ⟨(), rfl, rfl⟩
  | cons field rest ih =>
    obtain ⟨a, others⟩ := b
    obtain ⟨fresh, distinct⟩ := List.nodup_cons.1 distinct
    -- The later members name later fields, so they cannot touch the slot of this one.
    have ne {members : List (String × Value)} (held : rest.Hold frame others members) :
        ∀ m ∈ members, m.1 ≠ field.name := by
      intro m hm same
      exact fresh (same ▸ held.names m hm)
    rcases h with ⟨v, members', read, held, rfl⟩ | ⟨absent, held⟩
    · obtain ⟨slots, later, finished⟩ := ih distinct held
      refine ⟨(some a, slots), ?_, ?_⟩
      · have := readMembers_cons_of_ne frame other field rest (ne held) (some a) rest.empty
        rw [later] at this
        rw [empty, readMembers_cons_self, read]
        exact this
      · simp only [finish, Option.some_or, finished, bind, Except.bind]
        rfl
    · obtain ⟨slots, later, finished⟩ := ih distinct held
      refine ⟨(none, slots), ?_, ?_⟩
      · have := readMembers_cons_of_ne frame other field rest (ne held) none rest.empty
        rw [later] at this
        exact this
      · simp only [finish, Option.none_or, absent, finished, bind, Except.bind]
        rfl

end

def Lawful : {β σ : Type} → RecordFields β σ → Prop
  | _, _, .nil => True
  | _, _, .cons field rest => field.codec.Lawful ∧ rest.Lawful

def LawfulAt : {β σ : Type} → RecordFields β σ → β → Prop
  | _, _, .nil, _ => True
  | _, _, .cons field rest, (a, others) => field.codec.LawfulAt a ∧ rest.LawfulAt others

def DepthAtMost (n : Nat) : {β σ : Type} → RecordFields β σ → Prop
  | _, _, .nil => True
  | _, _, .cons field rest => field.codec.DepthAtMost n ∧ rest.DepthAtMost n

section
variable {α β σ : Type}

@[simp] theorem lawful_nil : RecordFields.nil.Lawful := trivial

@[simp] theorem lawful_cons (field : RecordField α) (rest : RecordFields β σ) :
    (RecordFields.cons field rest).Lawful ↔ field.codec.Lawful ∧ rest.Lawful := Iff.rfl

@[simp] theorem lawfulAt_nil : RecordFields.nil.LawfulAt () := trivial

@[simp] theorem lawfulAt_cons (field : RecordField α) (rest : RecordFields β σ) (a : α) (b : β) :
    (RecordFields.cons field rest).LawfulAt (a, b) ↔
      field.codec.LawfulAt a ∧ rest.LawfulAt b := Iff.rfl

theorem Lawful.lawfulAt {fs : RecordFields β σ} (h : fs.Lawful) (b : β) : fs.LawfulAt b := by
  induction fs with
  | nil => trivial
  | cons field rest ih => exact ⟨h.1.lawfulAt b.1, ih h.2 b.2⟩

@[simp] theorem depthAtMost_nil (n : Nat) : RecordFields.nil.DepthAtMost n := trivial

@[simp] theorem depthAtMost_cons (n : Nat) (field : RecordField α) (rest : RecordFields β σ) :
    (RecordFields.cons field rest).DepthAtMost n ↔
      field.codec.DepthAtMost n ∧ rest.DepthAtMost n := Iff.rfl

theorem LawfulAt.hold_write {fs : RecordFields β σ} {b : β} (h : fs.LawfulAt b) (frame : Frame)
    (shallow : Value.membersDepth (fs.write b) ≤ frame.room) : fs.Hold frame b (fs.write b) := by
  induction fs with
  | nil => rfl
  | cons field rest ih =>
    obtain ⟨a, others⟩ := b
    simp only [write, Value.membersDepth, Nat.max_le] at shallow
    exact .inl ⟨_, _, h.1.read_write frame shallow.1, ih h.2 shallow.2, rfl⟩

theorem Lawful.hold_write {fs : RecordFields β σ} (h : fs.Lawful) (frame : Frame) (b : β)
    (shallow : Value.membersDepth (fs.write b) ≤ frame.room) : fs.Hold frame b (fs.write b) :=
  (h.lawfulAt b).hold_write frame shallow

theorem name_mem_of_mem_write {fs : RecordFields β σ} {b : β} {m : String × Value}
    (h : m ∈ fs.write b) : m.1 ∈ fs.names := by
  induction fs with
  | nil => cases h
  | cons field rest ih =>
    rcases List.mem_cons.1 h with rfl | h
    · exact List.mem_cons_self
    · exact List.mem_cons_of_mem _ (ih h)

theorem LawfulAt.fits {fs : RecordFields β σ} {b : β} (h : fs.LawfulAt b) :
    Value.MembersFit (fs.write b) := by
  induction fs with
  | nil => trivial
  | cons field rest ih =>
    obtain ⟨a, others⟩ := b
    exact ⟨h.1.fits, ih h.2⟩

theorem Lawful.fits {fs : RecordFields β σ} (h : fs.Lawful) (b : β) :
    Value.MembersFit (fs.write b) := (h.lawfulAt b).fits

theorem DepthAtMost.write {n : Nat} {fs : RecordFields β σ} (h : fs.DepthAtMost n) (b : β) :
    Value.membersDepth (fs.write b) ≤ n := by
  induction fs with
  | nil => exact Nat.zero_le n
  | cons field rest ih => exact Nat.max_le.2 ⟨h.1 b.1, ih h.2 b.2⟩

end

end RecordFields

namespace RecordField

variable {α : Type} (name : String)

@[simp] theorem name_required (c : Codec α) : (required name c).name = name := rfl

@[simp] theorem name_defaulted (c : Codec α) (a : α) : (defaulted name c a).name = name := rfl

@[simp] theorem name_text : (text name).name = name := rfl

@[simp] theorem name_texts : (texts name).name = name := rfl

@[simp] theorem codec_required (c : Codec α) : (required name c).codec = c := rfl

@[simp] theorem codec_defaulted (c : Codec α) (a : α) : (defaulted name c a).codec = c := rfl

@[simp] theorem codec_nullable (c : Codec α) : (nullable name c).codec = c.option := rfl

@[simp] theorem codec_text : (text name).codec = Codec.string.option := rfl

@[simp] theorem codec_texts : (texts name).codec = Codec.string.list := rfl

end RecordField

namespace Record

variable {α : Type} {r : Record α}

structure Lawful (r : Record α) : Prop where
  distinct : r.fields.names.Nodup
  fields : r.fields.Lawful
  build_parts : ∀ a, r.build (r.parts a) = a

/-- What a lawful record does with every value, for one value. -/
structure LawfulAt (r : Record α) (a : α) : Prop where
  distinct : r.fields.names.Nodup
  fields : r.fields.LawfulAt (r.parts a)
  build_parts : r.build (r.parts a) = a

theorem Lawful.lawfulAt (h : r.Lawful) (a : α) : r.LawfulAt a :=
  ⟨h.distinct, h.fields.lawfulAt (r.parts a), h.build_parts a⟩

theorem readMembers_of_hold {a : α} (distinct : r.fields.names.Nodup)
    (build_parts : r.build (r.parts a) = a) {frame : Frame}
    {members : List (String × Value)} (held : r.fields.Hold frame (r.parts a) members) :
    r.readMembers frame (Value.memberTrees members) (.ok ()) = .ok a := by
  obtain ⟨slots, read, finished⟩ :=
    RecordFields.readMembers_of_hold frame Tree.skip distinct held
  simp only [readMembers, read, finished, Codec.ofFault_ok, bind, Except.bind]
  exact congrArg Except.ok build_parts

theorem LawfulAt.readMembers_members {a : α} (h : r.LawfulAt a) {frame : Frame}
    (shallow : Value.membersDepth (r.members a) ≤ frame.room) :
    r.readMembers frame (Value.memberTrees (r.members a)) (.ok ()) = .ok a :=
  readMembers_of_hold h.distinct h.build_parts (h.fields.hold_write frame shallow)

theorem Lawful.readMembers_members (h : r.Lawful) {frame : Frame} {a : α}
    (shallow : Value.membersDepth (r.members a) ≤ frame.room) :
    r.readMembers frame (Value.memberTrees (r.members a)) (.ok ()) = .ok a :=
  (h.lawfulAt a).readMembers_members shallow

theorem LawfulAt.codec {a : α} (h : r.LawfulAt a) : r.codec.LawfulAt a where
  read_write frame shallow := by
    have deep : Value.membersDepth (r.members a) + 1 ≤ frame.room := shallow
    obtain ⟨inner, entered, room⟩ := Frame.enter_of_lt deep
    show r.codec.read frame (.object (Value.memberTrees (r.members a)) (.ok ())) = _
    simp only [Record.codec, entered, bind, Except.bind, h.readMembers_members room]
  fits := h.fields.fits

theorem Lawful.codec (h : r.Lawful) : r.codec.Lawful :=
  Codec.lawful_of_lawfulAt fun a => (h.lawfulAt a).codec

theorem codec_neverNull (r : Record α) : r.codec.NeverNull := fun _ => nofun

@[simp] theorem codec_depth {n : Nat} (h : r.fields.DepthAtMost n) :
    r.codec.DepthAtMost (n + 1) := fun a =>
  Nat.add_le_add_right (h.write (r.parts a)) 1

section
variable {frame : Frame} {close : Close} {a : α}

theorem codec_read_object_iff {members : List (Key × Tree)} :
    r.codec.read frame (.object members close) = .ok a ↔
      ∃ inner slots parts, frame.enter = .ok inner ∧
        r.fields.readMembers inner Tree.skip r.fields.empty members = .ok slots ∧
        close = .ok () ∧ r.fields.finish slots = .ok parts ∧ r.build parts = a := by
  constructor
  · intro read
    obtain ⟨inner, entered, read⟩ := bind_eq_ok_iff.1 read
    obtain ⟨slots, readMembers, read⟩ := bind_eq_ok_iff.1 read
    obtain ⟨closed, isClosed, read⟩ := bind_eq_ok_iff.1 read
    obtain ⟨parts, finished, same⟩ := bind_eq_ok_iff.1 read
    exact ⟨inner, slots, parts, entered, readMembers, ok_of_ofFault isClosed, finished,
      Except.ok.inj same⟩
  · rintro ⟨inner, slots, parts, entered, read, rfl, finished, rfl⟩
    simp only [Record.codec, entered, readMembers, read, finished, Codec.ofFault_ok, bind,
      Except.bind]
    rfl

theorem codec_read_array_iff {items : List Tree} :
    r.codec.read frame (.array items close) = .ok a ↔
      ∃ inner parts, frame.enter = .ok inner ∧
        r.fields.readItems inner close
            (fun place => .wrongLength place (.recordOf r.name r.fields.count)) 0 items =
          .ok (parts, []) ∧
        close = .ok () ∧ r.build parts = a := by
  constructor
  · intro read
    obtain ⟨inner, entered, read⟩ := bind_eq_ok_iff.1 read
    obtain ⟨⟨parts, left⟩, readItems, read⟩ := bind_eq_ok_iff.1 read
    dsimp only at read
    split at read
    case isFalse => cases read
    case isTrue whole =>
      obtain rfl := List.isEmpty_iff.1 whole
      obtain ⟨closed, isClosed, same⟩ := bind_eq_ok_iff.1 read
      exact ⟨inner, parts, entered, readItems, ok_of_ofFault isClosed, Except.ok.inj same⟩
  · rintro ⟨inner, parts, entered, read, rfl, rfl⟩
    simp only [Record.codec, entered, readItems, read, List.isEmpty_nil, if_true, Codec.ofFault_ok,
      bind, Except.bind]
    rfl

end

end Record

end BuildCapture.Json
