import BuildCapture.Proofs.Json.Record
set_option autoImplicit false

/-!
Members left out of a document. What a codec writes of a value is read as that value even if members
that are optional there are left out at any depth, and is not read at all if one is left out that is
required (`Codec.Tolerates`). A record is like that if each of its fields is.
-/

namespace BuildCapture.Json

namespace Value

section
variable (optional : String → String → Value → Prop)

mutual

/-- A value with any of its optional members left out. Whether a member is optional is told from the
name of the member that its object stands under, from its own name and from its value. -/
def Omits : String → Value → Value → Prop
  | place, .array items, v => ∃ items', ItemsOmit place items items' ∧ v = .array items'
  | place, .object members, v =>
    ∃ members', MembersOmit place members members' ∧ v = .object members'
  | _, .null, v => v = .null
  | _, .bool b, v => v = .bool b
  | _, .int n, v => v = .int n
  | _, .string s, v => v = .string s

def ItemsOmit : String → List Value → List Value → Prop
  | _, [], items' => items' = []
  | place, v :: rest, items' =>
    ∃ v' rest', Omits place v v' ∧ ItemsOmit place rest rest' ∧ items' = v' :: rest'

def MembersOmit : String → List (String × Value) → List (String × Value) → Prop
  | _, [], members' => members' = []
  | place, (name, v) :: rest, members' =>
    (optional place name v ∧ MembersOmit place rest members') ∨
    ∃ v' rest', Omits name v v' ∧ MembersOmit place rest rest' ∧ members' = (name, v') :: rest'

end

end

section
variable (drop : String → String → Value → Bool)

mutual

def without : String → Value → Value
  | place, .array items => .array (itemsWithout place items)
  | place, .object members => .object (membersWithout place members)
  | _, v => v

def itemsWithout : String → List Value → List Value
  | _, [] => []
  | place, v :: rest => v.without place :: itemsWithout place rest

def membersWithout : String → List (String × Value) → List (String × Value)
  | _, [] => []
  | place, (name, v) :: rest =>
    if drop place name v then membersWithout place rest
    else (name, v.without name) :: membersWithout place rest

end

end

section
variable {optional : String → String → Value → Prop}

mutual

theorem omits_without {drop : String → String → Value → Bool}
    (may : ∀ place name v, drop place name v = true → optional place name v) (place : String)
    (v : Value) : Omits optional place v (v.without drop place) := by
  match v with
  | .array items => exact ⟨_, itemsOmit_without may place items, rfl⟩
  | .object members => exact ⟨_, membersOmit_without may place members, rfl⟩
  | .null | .bool _ | .int _ | .string _ => rfl

theorem itemsOmit_without {drop : String → String → Value → Bool}
    (may : ∀ place name v, drop place name v = true → optional place name v) (place : String)
    (items : List Value) :
    ItemsOmit optional place items (itemsWithout drop place items) := by
  match items with
  | [] => rfl
  | v :: rest => exact ⟨_, _, omits_without may place v, itemsOmit_without may place rest, rfl⟩

theorem membersOmit_without {drop : String → String → Value → Bool}
    (may : ∀ place name v, drop place name v = true → optional place name v) (place : String)
    (members : List (String × Value)) :
    MembersOmit optional place members (membersWithout drop place members) := by
  match members with
  | [] => rfl
  | (name, v) :: rest =>
    rw [membersWithout]
    split
    case isTrue dropped =>
      exact .inl ⟨may place name v dropped, membersOmit_without may place rest⟩
    case isFalse =>
      exact .inr ⟨_, _, omits_without may name v, membersOmit_without may place rest, rfl⟩

end

mutual

theorem depth_le_of_omits {place : String} (v : Value) {v' : Value}
    (h : Omits optional place v v') : v'.depth ≤ v.depth := by
  match v with
  | .array items =>
    obtain ⟨items', omitted, rfl⟩ := h
    exact Nat.add_le_add_right (itemsDepth_le_of_omit items omitted) 1
  | .object members =>
    obtain ⟨members', omitted, rfl⟩ := h
    exact Nat.add_le_add_right (membersDepth_le_of_omit members omitted) 1
  | .null | .bool _ | .int _ | .string _ => exact Nat.le_of_eq (congrArg depth h)

theorem itemsDepth_le_of_omit {place : String} (items : List Value) {items' : List Value}
    (h : ItemsOmit optional place items items') : itemsDepth items' ≤ itemsDepth items := by
  match items with
  | [] => exact Nat.le_of_eq (congrArg itemsDepth h)
  | v :: rest =>
    obtain ⟨v', rest', first, others, rfl⟩ := h
    exact Nat.max_le.2 ⟨Nat.le_trans (depth_le_of_omits v first) (Nat.le_max_left _ _),
      Nat.le_trans (itemsDepth_le_of_omit rest others) (Nat.le_max_right _ _)⟩

theorem membersDepth_le_of_omit {place : String} (members : List (String × Value))
    {members' : List (String × Value)} (h : MembersOmit optional place members members') :
    membersDepth members' ≤ membersDepth members := by
  match members with
  | [] => exact Nat.le_of_eq (congrArg membersDepth h)
  | (name, v) :: rest =>
    rcases h with ⟨-, others⟩ | ⟨v', rest', kept, others, rfl⟩
    · exact Nat.le_trans (membersDepth_le_of_omit rest others) (Nat.le_max_right _ _)
    · exact Nat.max_le.2 ⟨Nat.le_trans (depth_le_of_omits v kept) (Nat.le_max_left _ _),
        Nat.le_trans (membersDepth_le_of_omit rest others) (Nat.le_max_right _ _)⟩

end

mutual

theorem fits_of_omits {place : String} (v : Value) {v' : Value} (h : Omits optional place v v')
    (fits : v.Fits) : v'.Fits := by
  match v with
  | .array items =>
    obtain ⟨items', omitted, rfl⟩ := h
    exact itemsFit_of_omit items omitted fits
  | .object members =>
    obtain ⟨members', omitted, rfl⟩ := h
    exact membersFit_of_omit members omitted fits
  | .null | .bool _ | .int _ | .string _ => exact h ▸ fits

theorem itemsFit_of_omit {place : String} (items : List Value) {items' : List Value}
    (h : ItemsOmit optional place items items') (fits : ItemsFit items) : ItemsFit items' := by
  match items with
  | [] => exact h ▸ fits
  | v :: rest =>
    obtain ⟨v', rest', first, others, rfl⟩ := h
    exact ⟨fits_of_omits v first fits.1, itemsFit_of_omit rest others fits.2⟩

theorem membersFit_of_omit {place : String} (members : List (String × Value))
    {members' : List (String × Value)} (h : MembersOmit optional place members members')
    (fits : MembersFit members) : MembersFit members' := by
  match members with
  | [] => exact h ▸ fits
  | (name, v) :: rest =>
    rcases h with ⟨-, others⟩ | ⟨v', rest', kept, others, rfl⟩
    · exact membersFit_of_omit rest others fits.2
    · exact ⟨fits_of_omits v kept fits.1, membersFit_of_omit rest others fits.2⟩

end

theorem omits_self_of_scalar {place : String} {v : Value} (scalar : v.depth = 0) :
    Omits optional place v v := by
  cases v with
  | array items => cases scalar
  | object members => cases scalar
  | null | bool _ | int _ | string _ => rfl

theorem eq_of_omits {place : String} {v v' : Value} (scalar : v.depth = 0)
    (h : Omits optional place v v') : v' = v := by
  cases v with
  | array items => cases scalar
  | object members => cases scalar
  | null | bool _ | int _ | string _ => exact h

theorem ne_null_of_omits {place : String} {v v' : Value} (ne : v ≠ .null)
    (h : Omits optional place v v') : v' ≠ .null := by
  cases v with
  | array items =>
    obtain ⟨items', -, rfl⟩ := h
    nofun
  | object members =>
    obtain ⟨members', -, rfl⟩ := h
    nofun
  | null | bool _ | int _ | string _ => exact h ▸ ne

theorem MembersOmit.names {place : String} {members members' : List (String × Value)}
    (h : MembersOmit optional place members members') {p : String → Prop}
    (all : ∀ m ∈ members, p m.1) : ∀ m ∈ members', p m.1 := by
  induction members generalizing members' with
  | nil =>
    obtain rfl : members' = [] := h
    simp
  | cons n rest ih =>
    obtain ⟨first, later⟩ := List.forall_mem_cons.1 all
    rcases h with ⟨-, others⟩ | ⟨v', rest', -, others, rfl⟩
    · exact ih others later
    · exact List.forall_mem_cons.2 ⟨first, ih others later⟩

theorem membersOmit_append {place : String} {members others members' : List (String × Value)}
    (h : MembersOmit optional place (members ++ others) members') :
    ∃ kept kept', MembersOmit optional place members kept ∧
      MembersOmit optional place others kept' ∧ members' = kept ++ kept' := by
  induction members generalizing members' with
  | nil => exact ⟨[], members', rfl, h, rfl⟩
  | cons m rest ih =>
    rcases h with ⟨left, omitted⟩ | ⟨v', rest', first, omitted, rfl⟩
    · obtain ⟨kept, kept', hk, hk', rfl⟩ := ih omitted
      exact ⟨kept, kept', .inl ⟨left, hk⟩, hk', rfl⟩
    · obtain ⟨kept, kept', hk, hk', rfl⟩ := ih omitted
      exact ⟨_ :: kept, kept', .inr ⟨v', kept, first, hk, rfl⟩, hk', rfl⟩

theorem MembersOmit.append {place : String} {members others kept kept' : List (String × Value)}
    (h : MembersOmit optional place members kept) (h' : MembersOmit optional place others kept') :
    MembersOmit optional place (members ++ others) (kept ++ kept') := by
  induction members generalizing kept with
  | nil =>
    obtain rfl : kept = [] := h
    exact h'
  | cons m rest ih =>
    rcases h with ⟨left, omitted⟩ | ⟨v', rest', first, omitted, rfl⟩
    · exact .inl ⟨left, ih omitted⟩
    · exact .inr ⟨v', rest' ++ kept', first, ih omitted, rfl⟩

end

end Value

def Named (optional : String → String → Value → Prop) (required : String → String → Prop) :
    String → String → Value → Prop :=
  fun place name v => optional place name v ∨ required place name

namespace Codec

variable {α : Type}

/-- Where members are left out of what the codec writes of a value, it is read as that value if all
of them are optional, and not read if one of them is required. -/
structure Tolerates (optional : String → String → Value → Prop) (required : String → String → Prop)
    (c : Codec α) (place : String) (a : α) : Prop where
  read : ∀ (frame : Frame) (v : Value), (c.write a).depth ≤ frame.room →
    Value.Omits optional place (c.write a) v → c.read frame v.tree = .ok a
  refuses : ∀ (frame : Frame) (v : Value) (b : α), (c.write a).depth ≤ frame.room →
    Value.Omits (Named optional required) place (c.write a) v → c.read frame v.tree = .ok b →
    Value.Omits optional place (c.write a) v

variable {optional : String → String → Value → Prop} {required : String → String → Prop}
  {place : String}

theorem Lawful.tolerates {c : Codec α} (h : c.Lawful) (scalar : c.DepthAtMost 0) (a : α) :
    c.Tolerates optional required place a where
  read frame v shallow omitted := by
    rw [Value.eq_of_omits (Nat.le_zero.1 (scalar a)) omitted]
    exact h.read_write a frame shallow
  refuses frame v b _ omitted _ := by
    rw [Value.eq_of_omits (Nat.le_zero.1 (scalar a)) omitted]
    exact Value.omits_self_of_scalar (Nat.le_zero.1 (scalar a))

theorem Lawful.write_inj {c : Codec α} (h : c.Lawful) {a b : α} (same : c.write a = c.write b) :
    a = b := by
  have read := h.read_write a ⟨(c.write a).depth, false⟩ (Nat.le_refl _)
  rw [same, h.read_write b _ (Nat.le_refl _)] at read
  exact (Except.ok.inj read).symm

theorem NeverNull.eq_none {c : Codec α} (h : c.NeverNull) {o : Option α}
    (null : c.option.write o = .null) : o = none := by
  cases o with
  | none => rfl
  | some a => exact absurd null (h a)

theorem tolerates_none (c : Codec α) : c.option.Tolerates optional required place none where
  read frame v _ omitted := by
    obtain rfl : v = .null := omitted
    rfl
  refuses frame v b _ omitted _ := omitted

theorem option_read_of_ne {c : Codec α} {v : Value} (ne : v ≠ .null) (frame : Frame) :
    c.option.read frame v.tree = (c.read frame v.tree).map some := by
  show (if startsNull v.tree then _ else _) = _
  rw [startsNull_tree ne]
  rfl

theorem Tolerates.some {c : Codec α} {a : α} (h : c.Tolerates optional required place a)
    (never : c.NeverNull) : c.option.Tolerates optional required place (some a) where
  read frame v shallow omitted := by
    rw [option_read_of_ne (Value.ne_null_of_omits (never a) omitted),
      h.read frame v shallow omitted]
    rfl
  refuses frame v b shallow omitted read := by
    rw [option_read_of_ne (Value.ne_null_of_omits (never a) omitted)] at read
    obtain ⟨b, read, -⟩ := map_eq_ok_iff.1 read
    exact h.refuses frame v b shallow omitted read

theorem tolerates_option {c : Codec α} (h : ∀ a, c.Tolerates optional required place a)
    (never : c.NeverNull) (o : Option α) : c.option.Tolerates optional required place o :=
  match o with
  | none => tolerates_none c
  | some a => (h a).some never

section
variable {c : Codec α} (h : ∀ a, c.Tolerates optional required place a) {frame : Frame}
include h

theorem mapM_of_itemsOmit {as : List α} {items : List Value}
    (shallow : Value.itemsDepth (as.map c.write) ≤ frame.room)
    (omitted : Value.ItemsOmit optional place (as.map c.write) items) :
    (items.map Value.tree).mapM (c.read frame) = .ok as := by
  induction as generalizing items with
  | nil =>
    obtain rfl : items = [] := omitted
    rfl
  | cons a as ih =>
    obtain ⟨v, rest, first, others, rfl⟩ := omitted
    have deep := Nat.max_le.1 shallow
    rw [List.map_cons, List.mapM_cons, (h a).read frame v deep.1 first, ih deep.2 others]
    rfl

theorem itemsOmit_of_mapM {as bs : List α} {items : List Value}
    (shallow : Value.itemsDepth (as.map c.write) ≤ frame.room)
    (omitted : Value.ItemsOmit (Named optional required) place (as.map c.write) items)
    (read : (items.map Value.tree).mapM (c.read frame) = .ok bs) :
    Value.ItemsOmit optional place (as.map c.write) items := by
  induction as generalizing items bs with
  | nil => exact omitted
  | cons a as ih =>
    obtain ⟨v, rest, first, others, rfl⟩ := omitted
    have deep := Nat.max_le.1 shallow
    rw [List.map_cons, List.mapM_cons] at read
    obtain ⟨b, readFirst, read⟩ := bind_eq_ok_iff.1 read
    obtain ⟨bs, readOthers, -⟩ := bind_eq_ok_iff.1 read
    exact ⟨v, rest, (h a).refuses frame v b deep.1 first readFirst, ih deep.2 others readOthers,
      rfl⟩

theorem tolerates_list (as : List α) : c.list.Tolerates optional required place as where
  read frame v shallow omitted := by
    obtain ⟨items, omitted, rfl⟩ := omitted
    have deep : Value.itemsDepth (as.map c.write) + 1 ≤ frame.room := shallow
    obtain ⟨inner, entered, room⟩ := Frame.enter_of_lt deep
    have read := mapM_of_itemsOmit h room omitted
    rw [Value.tree, Value.itemTrees_eq_map]
    simp only [Codec.list, entered, bind, Except.bind, read]
    rfl
  refuses frame v bs shallow omitted read := by
    obtain ⟨items, omitted, rfl⟩ := omitted
    rw [Value.tree, Value.itemTrees_eq_map] at read
    obtain ⟨inner, entered, read⟩ := bind_eq_ok_iff.1 read
    obtain ⟨bs, read, -⟩ := bind_eq_ok_iff.1 read
    exact ⟨items, itemsOmit_of_mapM h (Frame.le_of_enter entered shallow) omitted read, rfl⟩

end

theorem tolerates_texts (texts : List String) :
    string.list.Tolerates optional required place texts :=
  tolerates_list (string_lawful.tolerates (string_depth 0)) texts

theorem tolerates_nameSet (s : NameSet) : nameSet.Tolerates optional required place s where
  read frame v shallow omitted := by
    have texts : string.list.Tolerates optional required place s.toList := tolerates_texts s.toList
    show (string.list.read frame v.tree).map NameSet.ofList = _
    rw [texts.read frame v shallow omitted]
    exact congrArg Except.ok s.ofList_toList
  refuses frame v b shallow omitted read := by
    obtain ⟨names, read, -⟩ := map_eq_ok_iff.1 read
    exact (tolerates_texts s.toList).refuses frame v names shallow omitted read

section
variable {c : Codec α} (h : ∀ name a, c.Tolerates optional required name a) {frame : Frame}
  (never : ∀ name a, ¬ Named optional required place name (c.write a))
include h never

theorem mapM_of_membersOmit {entries : List (String × α)} {members : List (String × Value)}
    (shallow : Value.membersDepth (entries.map fun e => (e.1, c.write e.2)) ≤ frame.room)
    (omitted : Value.MembersOmit optional place (entries.map fun e => (e.1, c.write e.2)) members) :
    (Value.memberTrees members).mapM (readEntry c frame) = .ok entries := by
  induction entries generalizing members with
  | nil =>
    obtain rfl : members = [] := omitted
    rfl
  | cons e entries ih =>
    obtain ⟨v, rest, first, others, rfl⟩ :=
      omitted.resolve_left fun left => never _ _ (.inl left.1)
    have deep := Nat.max_le.1 shallow
    have entry : readEntry c frame (.ofString e.1, v.tree) = .ok e := by
      simp only [readEntry, (h e.1 e.2).read frame v deep.1 first]
      rfl
    rw [Value.memberTrees, List.mapM_cons, entry, ih deep.2 others]
    rfl

theorem membersOmit_of_mapM {entries found : List (String × α)} {members : List (String × Value)}
    (shallow : Value.membersDepth (entries.map fun e => (e.1, c.write e.2)) ≤ frame.room)
    (omitted : Value.MembersOmit (Named optional required) place
      (entries.map fun e => (e.1, c.write e.2)) members)
    (read : (Value.memberTrees members).mapM (readEntry c frame) = .ok found) :
    Value.MembersOmit optional place (entries.map fun e => (e.1, c.write e.2)) members := by
  induction entries generalizing members found with
  | nil => exact omitted
  | cons e entries ih =>
    obtain ⟨v, rest, first, others, rfl⟩ := omitted.resolve_left fun left => never _ _ left.1
    have deep := Nat.max_le.1 shallow
    rw [Value.memberTrees, List.mapM_cons] at read
    obtain ⟨entry, readFirst, read⟩ := bind_eq_ok_iff.1 read
    obtain ⟨entries, readOthers, -⟩ := bind_eq_ok_iff.1 read
    obtain ⟨name, -, readFirst⟩ := bind_eq_ok_iff.1 readFirst
    obtain ⟨value, readFirst, -⟩ := bind_eq_ok_iff.1 readFirst
    exact .inr ⟨v, rest, (h e.1 e.2).refuses frame v value deep.1 first readFirst,
      ih deep.2 others readOthers, rfl⟩

theorem tolerates_nameMap (m : NameMap α) :
    (Codec.nameMap c).Tolerates optional required place m where
  read frame v shallow omitted := by
    obtain ⟨members, omitted, rfl⟩ := omitted
    have deep : Value.membersDepth (m.entries.map fun e => (e.1, c.write e.2)) + 1 ≤ frame.room :=
      shallow
    obtain ⟨inner, entered, room⟩ := Frame.enter_of_lt deep
    rw [Value.tree]
    simp only [Codec.nameMap, entered, bind, Except.bind, mapM_of_membersOmit h never room omitted]
    exact congrArg Except.ok m.ofList_entries
  refuses frame v found shallow omitted read := by
    obtain ⟨members, omitted, rfl⟩ := omitted
    rw [Value.tree] at read
    obtain ⟨inner, entered, read⟩ := bind_eq_ok_iff.1 read
    obtain ⟨entries, read, -⟩ := bind_eq_ok_iff.1 read
    exact ⟨members,
      membersOmit_of_mapM h never (Frame.le_of_enter entered shallow) omitted read, rfl⟩

end

end Codec

namespace RecordFields

/-- Every field tolerates members left out of its own value. It is optional only where it holds the
value that stands for a missing one, and required only where no value does. -/
def Tolerates (optional : String → String → Value → Prop) (required : String → String → Prop)
    (place : String) : {β σ : Type} → RecordFields β σ → β → Prop
  | _, _, .nil, _ => True
  | _, _, .cons field rest, (a, others) =>
    (field.codec.Tolerates optional required field.name a ∧
      (optional place field.name (field.codec.write a) → field.absent = some a) ∧
      (required place field.name → field.absent = none)) ∧
    rest.Tolerates optional required place others

variable {optional : String → String → Value → Prop} {required : String → String → Prop}
  {place : String} {β σ : Type}

theorem Tolerates.hold {fs : RecordFields β σ} {b : β} (h : fs.Tolerates optional required place b)
    {frame : Frame} (shallow : Value.membersDepth (fs.write b) ≤ frame.room)
    {members : List (String × Value)}
    (omitted : Value.MembersOmit optional place (fs.write b) members) :
    fs.Hold frame b members := by
  induction fs generalizing members with
  | nil => exact omitted
  | cons field rest ih =>
    obtain ⟨a, others⟩ := b
    obtain ⟨⟨tolerates, default, -⟩, later⟩ := h
    have deep := Nat.max_le.1 shallow
    rcases omitted with ⟨left, omitted⟩ | ⟨v, members', kept, omitted, rfl⟩
    · exact .inr ⟨default left, ih later deep.2 omitted⟩
    · exact .inl ⟨v, members', tolerates.read frame v deep.1 kept, ih later deep.2 omitted, rfl⟩

theorem Tolerates.membersOmit {fs : RecordFields β σ} {b : β}
    (h : fs.Tolerates optional required place b) (distinct : fs.names.Nodup) {frame : Frame}
    {other : Tree → Except Fault Unit} (shallow : Value.membersDepth (fs.write b) ≤ frame.room)
    {members : List (String × Value)}
    (omitted : Value.MembersOmit (Named optional required) place (fs.write b) members) {slots : σ}
    (read : fs.readMembers frame other fs.empty (Value.memberTrees members) = .ok slots) {found : β}
    (finished : fs.finish slots = .ok found) :
    Value.MembersOmit optional place (fs.write b) members := by
  induction fs generalizing members with
  | nil => exact omitted
  | cons field rest ih =>
    obtain ⟨a, others⟩ := b
    obtain ⟨slot, slots⟩ := slots
    obtain ⟨⟨tolerates, -, missed⟩, later⟩ := h
    have deep := Nat.max_le.1 shallow
    obtain ⟨fresh, distinct⟩ := List.nodup_cons.1 distinct
    have ne {members : List (String × Value)}
        (omitted : Value.MembersOmit (Named optional required) place (rest.write others) members) :
        ∀ m ∈ members, m.1 ≠ field.name := by
      intro m hm same
      exact fresh (same ▸ omitted.names (fun _ => name_mem_of_mem_write) m hm)
    rcases omitted with ⟨left, omitted⟩ | ⟨v, members', kept, omitted, rfl⟩
    case inl =>
      rw [empty, readMembers_cons_of_ne frame other field rest (ne omitted)] at read
      obtain ⟨slots', read, same⟩ := map_eq_ok_iff.1 read
      cases same
      -- Reading goes on only past a field that has a default, and so is not required.
      cases absent : field.absent with
      | none => simp [finish, absent, refuse] at finished
      | some default =>
        simp only [finish, Option.none_or, absent] at finished
        obtain ⟨found, finished, -⟩ := bind_eq_ok_iff.1 finished
        have left := left.resolve_right fun needed => by simp [missed needed] at absent
        exact .inl ⟨left, ih later distinct deep.2 omitted read finished⟩
    case inr =>
      rw [empty, readMembers_cons_self] at read
      obtain ⟨a', readFirst, read⟩ := bind_eq_ok_iff.1 read
      rw [readMembers_cons_of_ne frame other field rest (ne omitted)] at read
      obtain ⟨slots', read, same⟩ := map_eq_ok_iff.1 read
      cases same
      obtain ⟨found, finished, -⟩ := bind_eq_ok_iff.1 finished
      exact .inr ⟨v, members', tolerates.refuses frame v a' deep.1 kept readFirst,
        ih later distinct deep.2 omitted read finished, rfl⟩

end RecordFields

namespace Record

variable {α : Type} {optional : String → String → Value → Prop} {required : String → String → Prop}
  {place : String} {r : Record α} {a : α}

theorem LawfulAt.readMembers_of_omit (h : r.LawfulAt a)
    (fields : r.fields.Tolerates optional required place (r.parts a)) {frame : Frame}
    (shallow : Value.membersDepth (r.members a) ≤ frame.room) {members : List (String × Value)}
    (omitted : Value.MembersOmit optional place (r.members a) members) :
    r.readMembers frame (Value.memberTrees members) (.ok ()) = .ok a :=
  readMembers_of_hold h.distinct h.build_parts (fields.hold shallow omitted)

theorem LawfulAt.membersOmit_of_read (h : r.LawfulAt a)
    (fields : r.fields.Tolerates optional required place (r.parts a)) {frame : Frame}
    (shallow : Value.membersDepth (r.members a) ≤ frame.room) {members : List (String × Value)}
    (omitted : Value.MembersOmit (Named optional required) place (r.members a) members) {b : α}
    (read : r.readMembers frame (Value.memberTrees members) (.ok ()) = .ok b) :
    Value.MembersOmit optional place (r.members a) members := by
  obtain ⟨slots, read, rest⟩ := bind_eq_ok_iff.1 read
  obtain ⟨closed, -, rest⟩ := bind_eq_ok_iff.1 rest
  obtain ⟨parts, finished, -⟩ := bind_eq_ok_iff.1 rest
  exact fields.membersOmit h.distinct shallow omitted read finished

theorem LawfulAt.codec_tolerates (h : r.LawfulAt a)
    (fields : r.fields.Tolerates optional required place (r.parts a)) :
    r.codec.Tolerates optional required place a where
  read frame v shallow omitted := by
    obtain ⟨members, omitted, rfl⟩ := omitted
    have deep : Value.membersDepth (r.members a) + 1 ≤ frame.room := shallow
    obtain ⟨inner, entered, room⟩ := Frame.enter_of_lt deep
    rw [Value.tree]
    simp only [Record.codec, entered, bind, Except.bind, h.readMembers_of_omit fields room omitted]
  refuses frame v b shallow omitted read := by
    obtain ⟨members, omitted, rfl⟩ := omitted
    rw [Value.tree] at read
    obtain ⟨inner, entered, read⟩ := bind_eq_ok_iff.1 read
    have room : Value.membersDepth (r.members a) ≤ inner.room := Frame.le_of_enter entered shallow
    exact ⟨members, h.membersOmit_of_read fields room omitted read, rfl⟩

theorem Lawful.codec_tolerates (h : r.Lawful)
    (fields : ∀ a, r.fields.Tolerates optional required place (r.parts a)) (a : α) :
    r.codec.Tolerates optional required place a := (h.lawfulAt a).codec_tolerates (fields a)

end Record

end BuildCapture.Json
