import BuildCapture.Json.Record
import BuildCapture.Names.Lemmas
import BuildCapture.Proofs.Checked
import BuildCapture.Proofs.Json.Spelling
set_option autoImplicit false

/-!
Lawful codecs: what the codec writes of a value is read as that value, given room for its containers
(`Codec.Lawful`). A lawful codec then also gets back what it encodes as text
(`Codec.decode_encode`).
-/

namespace BuildCapture.Json

namespace Value

mutual

/-- How many containers stand one inside the other. -/
def depth : Value → Nat
  | .array items => itemsDepth items + 1
  | .object members => membersDepth members + 1
  | .null | .bool _ | .int _ | .string _ => 0

def itemsDepth : List Value → Nat
  | [] => 0
  | v :: rest => max v.depth (itemsDepth rest)

def membersDepth : List (String × Value) → Nat
  | [] => 0
  | (_, v) :: rest => max v.depth (membersDepth rest)

end

theorem itemsDepth_le_iff {items : List Value} {n : Nat} :
    itemsDepth items ≤ n ↔ ∀ v ∈ items, v.depth ≤ n := by
  induction items with
  | nil => simp [itemsDepth]
  | cons v rest ih =>
    rw [itemsDepth, Nat.max_le, ih]
    simp

theorem membersDepth_le_iff {members : List (String × Value)} {n : Nat} :
    membersDepth members ≤ n ↔ ∀ m ∈ members, m.2.depth ≤ n := by
  induction members with
  | nil => simp [membersDepth]
  | cons m rest ih =>
    rw [membersDepth, Nat.max_le, ih]
    simp

theorem itemsFit_iff {items : List Value} : ItemsFit items ↔ ∀ v ∈ items, v.Fits := by
  induction items with
  | nil => simp [ItemsFit]
  | cons v rest ih => simp [ItemsFit, ih]

theorem membersFit_iff {members : List (String × Value)} :
    MembersFit members ↔ ∀ m ∈ members, m.2.Fits := by
  induction members with
  | nil => simp [MembersFit]
  | cons m rest ih => simp [MembersFit, ih]

theorem itemTrees_eq_map (items : List Value) : itemTrees items = items.map tree := by
  induction items with
  | nil => rfl
  | cons v rest ih => simp [itemTrees, ih]

theorem memberTrees_eq_map (members : List (String × Value)) :
    memberTrees members = members.map fun m => (.ofString m.1, m.2.tree) := by
  induction members with
  | nil => rfl
  | cons m rest ih => simp [memberTrees, ih]

theorem memberTrees_append (members others : List (String × Value)) :
    memberTrees (members ++ others) = memberTrees members ++ memberTrees others := by
  simp [memberTrees_eq_map]

theorem membersDepth_append (members others : List (String × Value)) :
    membersDepth (members ++ others) = max (membersDepth members) (membersDepth others) := by
  induction members with
  | nil => simp [membersDepth]
  | cons m rest ih => simp [membersDepth, ih, Nat.max_assoc]

theorem membersFit_append {members others : List (String × Value)} :
    MembersFit (members ++ others) ↔ MembersFit members ∧ MembersFit others := by
  simp [membersFit_iff, or_imp, forall_and]

theorem filter_memberTrees_of_not_mem {members : List (String × Value)} {names : List String}
    (h : ∀ m ∈ members, m.1 ∉ names) :
    (memberTrees members).filter (fun m => !m.1.isOneOf names) =
      memberTrees members := by
  rw [memberTrees_eq_map, List.filter_eq_self]
  intro m hm
  obtain ⟨member, hmember, rfl⟩ := List.mem_map.1 hm
  simpa [Key.isOneOf, Key.ofString] using h member hmember

theorem filter_memberTrees_of_mem {members : List (String × Value)} {names : List String}
    (h : ∀ m ∈ members, m.1 ∈ names) :
    (memberTrees members).filter (fun m => !m.1.isOneOf names) = [] := by
  rw [memberTrees_eq_map, List.filter_eq_nil_iff]
  intro m hm
  obtain ⟨member, hmember, rfl⟩ := List.mem_map.1 hm
  simpa [Key.isOneOf, Key.ofString] using h member hmember

mutual

theorem take_tree (v : Value) {room : Nat} (h : v.depth ≤ room) : v.tree.take room = .ok () := by
  match v with
  | .null => rfl
  | .bool true | .bool false => rfl
  | .int _ => rfl
  | .string _ => rfl
  | .array items =>
    simp only [depth] at h
    rw [tree, Tree.take, if_neg (by omega), takeItems_trees items (by omega)]
    rfl
  | .object members =>
    simp only [depth] at h
    rw [tree, Tree.take, if_neg (by omega), takeMembers_trees members (by omega)]
    rfl

theorem takeItems_trees (items : List Value) {room : Nat} (h : itemsDepth items ≤ room) :
    Tree.takeItems room (itemTrees items) = .ok () := by
  match items with
  | [] => rfl
  | v :: rest =>
    simp only [itemsDepth, Nat.max_le] at h
    rw [itemTrees, Tree.takeItems, take_tree v h.1]
    exact takeItems_trees rest h.2

theorem takeMembers_trees (members : List (String × Value)) {room : Nat}
    (h : membersDepth members ≤ room) : Tree.takeMembers room (memberTrees members) = .ok () := by
  match members with
  | [] => rfl
  | (name, v) :: rest =>
    simp only [membersDepth, Nat.max_le] at h
    rw [memberTrees, Tree.takeMembers, take_tree v h.1]
    exact takeMembers_trees rest h.2

end

end Value

theorem startsNull_tree {v : Value} (h : v ≠ .null) : Codec.startsNull v.tree = false := by
  cases v with
  | null => exact absurd rfl h
  | bool b => cases b <;> rfl
  | int n =>
    obtain ⟨c, digits, hn, hc⟩ := ofInt_eq_cons n
    have : c ≠ 'n' := by
      rcases hc with rfl | hc
      · decide
      · exact ne_of_isDigit hc (by decide)
    simp [Value.tree, Codec.startsNull, Leaf.ofScalar, hn, this]
  | string s => rfl
  | array items => rfl
  | object members => rfl

theorem Frame.enter_of_lt {frame : Frame} {n : Nat} (h : n + 1 ≤ frame.room) :
    ∃ inner, frame.enter = .ok inner ∧ n ≤ inner.room := by
  obtain ⟨room, taken⟩ := frame
  cases room with
  | zero => simp at h
  | succ room => exact ⟨⟨room, taken⟩, rfl, Nat.le_of_succ_le_succ h⟩

theorem Frame.le_of_enter {frame inner : Frame} (entered : frame.enter = .ok inner) {n : Nat}
    (h : n + 1 ≤ frame.room) : n ≤ inner.room := by
  obtain ⟨found, same, le⟩ := Frame.enter_of_lt h
  obtain rfl : inner = found := Except.ok.inj (entered.symm.trans same)
  exact le

theorem ok_of_ofFault {α : Type} {e : Except Fault α} {a : α} (h : ofFault e = .ok a) :
    e = .ok a := mapError_eq_ok_iff.1 h

namespace Codec

variable {α β : Type}

@[simp] theorem ofFault_ok (a : α) : ofFault (.ok a) = .ok a := rfl

structure Lawful (c : Codec α) : Prop where
  read_write : ∀ (a : α) (frame : Frame), (c.write a).depth ≤ frame.room →
    c.read frame (c.write a).tree = .ok a
  fits : ∀ a, (c.write a).Fits

/-- What a lawful codec does with every value, for one value. -/
structure LawfulAt (c : Codec α) (a : α) : Prop where
  read_write : ∀ frame : Frame, (c.write a).depth ≤ frame.room →
    c.read frame (c.write a).tree = .ok a
  fits : (c.write a).Fits

theorem Lawful.lawfulAt {c : Codec α} (h : c.Lawful) (a : α) : c.LawfulAt a :=
  ⟨h.read_write a, h.fits a⟩

theorem lawful_of_lawfulAt {c : Codec α} (h : ∀ a, c.LawfulAt a) : c.Lawful :=
  ⟨fun a => (h a).read_write, fun a => (h a).fits⟩

/-- `null` stands for no value at all. -/
def NeverNull (c : Codec α) : Prop := ∀ a, c.write a ≠ .null

/-- No value needs more than so many containers one inside the other. -/
def DepthAtMost (c : Codec α) (n : Nat) : Prop := ∀ a, (c.write a).depth ≤ n

theorem decode_spelled (c : Codec α) {v : Value} {t : List Char} (spelled : v.Spelled t)
    (fits : v.Fits) : c.decode (String.ofList t) = c.read .top v.tree := by
  have scanned := scan_ofList spelled fits
  simp only [decode, scanned]
  cases c.read .top v.tree <;> rfl

/-- A lawful codec reads back what it encodes. -/
theorem decode_encode {c : Codec α} (h : c.Lawful) (a : α)
    (shallow : (c.write a).depth ≤ Frame.top.room) : c.decode (c.encode a) = .ok a :=
  (c.decode_spelled (Value.spelled_wire _) (h.fits a)).trans (h.read_write a _ shallow)

theorem string_lawful : string.Lawful := ⟨fun _ _ _ => rfl, fun _ => trivial⟩

theorem bool_lawful : bool.Lawful := ⟨fun a _ _ => by cases a <;> rfl, fun _ => trivial⟩

theorem readInt_tree {low high n : Int} (wanted : Wanted) (h : low ≤ n ∧ n ≤ high) :
    readInt low high wanted (Value.tree (.int n)) = .ok n := if_pos h

theorem fitsWord_of_bounds {n : Int} (low : -9223372036854775808 ≤ n)
    (high : n < 18446744073709551616) : FitsWord n := by
  have least : Int64.minValue.toInt = -9223372036854775808 := by decide
  have size : (UInt64.size : Int) = 18446744073709551616 := by decide
  exact ⟨least ▸ low, size ▸ high⟩

theorem int32_lawful : int32.Lawful where
  read_write n _ _ := by
    show (readInt _ _ _ (Value.tree (.int n.toInt))).map Int32.ofInt = _
    rw [readInt_tree _ ⟨n.minValue_le_toInt, n.toInt_le⟩]
    simp [Except.map]
  fits n := fitsWord_of_bounds (by have := n.le_toInt; omega) (by have := n.toInt_lt; omega)

theorem int64_lawful : int64.Lawful where
  read_write n _ _ := by
    show (readInt _ _ _ (Value.tree (.int n.toInt))).map Int64.ofInt = _
    rw [readInt_tree _ ⟨n.minValue_le_toInt, n.toInt_le⟩]
    simp [Except.map]
  fits n := fitsWord_of_bounds (by have := n.le_toInt; omega) (by have := n.toInt_lt; omega)

theorem keyword_lawful {known : List (String × α)} {name : α → String}
    (named : ∀ a, known.lookup (name a) = some a) : (keyword known name).Lawful where
  read_write a _ _ := by
    show lookUp known (name a) = _
    rw [lookUp, named]
  fits _ := trivial

theorem string_neverNull : string.NeverNull := fun _ => nofun

theorem keyword_neverNull (known : List (String × α)) (name : α → String) :
    (keyword known name).NeverNull := fun _ => nofun

theorem lawfulAt_none (c : Codec α) : c.option.LawfulAt none := ⟨fun _ _ => rfl, trivial⟩

theorem LawfulAt.some {c : Codec α} {a : α} (h : c.LawfulAt a) (never : c.NeverNull) :
    c.option.LawfulAt (some a) where
  read_write frame shallow := by
    show (if startsNull (c.write a).tree then _ else (c.read frame (c.write a).tree).map _) = _
    rw [startsNull_tree (never a), h.read_write frame shallow]
    rfl
  fits := h.fits

theorem Lawful.option {c : Codec α} (h : c.Lawful) (never : c.NeverNull) : c.option.Lawful :=
  lawful_of_lawfulAt fun a =>
    match a with
    | none => lawfulAt_none c
    | some a => (h.lawfulAt a).some never

theorem text_lawful : string.option.Lawful := string_lawful.option string_neverNull

theorem mapM_map_eq_map {γ : Type} {f : γ → Except Error β} {g : α → γ} {into : α → β}
    {as : List α} (h : ∀ a ∈ as, f (g a) = .ok (into a)) :
    (as.map g).mapM f = .ok (as.map into) := by
  induction as with
  | nil => rfl
  | cons a as ih =>
    obtain ⟨here, later⟩ := List.forall_mem_cons.1 h
    rw [List.map_cons, List.mapM_cons, here, ih later]
    rfl

theorem mapM_map_ok {γ : Type} {f : γ → Except Error α} {g : α → γ} {as : List α}
    (h : ∀ a ∈ as, f (g a) = .ok a) : (as.map g).mapM f = .ok as :=
  (mapM_map_eq_map h).trans (congrArg Except.ok as.map_id)

theorem Lawful.list {c : Codec α} (h : c.Lawful) : c.list.Lawful where
  read_write as frame shallow := by
    have deep : Value.itemsDepth (as.map c.write) + 1 ≤ frame.room := shallow
    obtain ⟨inner, entered, room⟩ := Frame.enter_of_lt deep
    rw [Value.itemsDepth_le_iff] at room
    have items : (as.map fun a => (c.write a).tree).mapM (c.read inner) = .ok as :=
      mapM_map_ok fun a ha => h.read_write a inner (room _ (List.mem_map_of_mem ha))
    show Codec.read c.list frame (.array (Value.itemTrees (as.map c.write)) (.ok ())) = _
    rw [Value.itemTrees_eq_map, List.map_map]
    simp only [Codec.list, entered, bind, Except.bind, Function.comp_def, items]
    rfl
  fits as := by
    show Value.ItemsFit (as.map c.write)
    rw [Value.itemsFit_iff]
    simpa using fun a _ => h.fits a

theorem Lawful.convert {c : Codec α} (h : c.Lawful) {into : α → β} {back : β → α}
    (inverse : ∀ b, into (back b) = b) : (c.convert into back).Lawful where
  read_write b frame shallow := by
    show (c.read frame (c.write (back b)).tree).map into = _
    rw [h.read_write _ frame shallow]
    exact congrArg Except.ok (inverse b)
  fits b := h.fits (back b)

theorem nameSet_lawful : nameSet.Lawful where
  read_write s frame shallow := by
    show (string.list.read frame (string.list.write s.toList).tree).map NameSet.ofList = _
    rw [string_lawful.list.read_write s.toList frame shallow]
    exact congrArg Except.ok s.ofList_toList
  fits s := string_lawful.list.fits s.toList

theorem Lawful.nameMap {c : Codec α} (h : c.Lawful) : (Codec.nameMap c).Lawful where
  read_write m frame shallow := by
    have deep : Value.membersDepth (m.entries.map fun e => (e.1, c.write e.2)) + 1 ≤ frame.room :=
      shallow
    obtain ⟨inner, entered, room⟩ := Frame.enter_of_lt deep
    rw [Value.membersDepth_le_iff] at room
    have entries : (m.entries.map fun e => (Key.ofString e.1, (c.write e.2).tree)).mapM
        (readEntry c inner) = .ok m.entries := by
      refine mapM_map_ok fun e he => ?_
      have := h.read_write e.2 inner (room (e.1, c.write e.2) (List.mem_map_of_mem he))
      simp only [readEntry, this]
      rfl
    show (Codec.nameMap c).read frame
      (.object (Value.memberTrees (m.entries.map fun e => (e.1, c.write e.2))) (.ok ())) = _
    rw [Value.memberTrees_eq_map, List.map_map]
    simp only [Codec.nameMap, entered, bind, Except.bind, Function.comp_def, entries]
    exact congrArg Except.ok m.ofList_entries
  fits m := by
    show Value.MembersFit (m.entries.map fun e => (e.1, c.write e.2))
    rw [Value.membersFit_iff]
    intro member hm
    obtain ⟨e, -, rfl⟩ := List.mem_map.1 hm
    exact h.fits e.2

@[simp] theorem string_depth (n : Nat) : string.DepthAtMost n := fun _ => Nat.zero_le n

@[simp] theorem bool_depth (n : Nat) : bool.DepthAtMost n := fun _ => Nat.zero_le n

@[simp] theorem int32_depth (n : Nat) : int32.DepthAtMost n := fun _ => Nat.zero_le n

@[simp] theorem int64_depth (n : Nat) : int64.DepthAtMost n := fun _ => Nat.zero_le n

@[simp] theorem keyword_depth (known : List (String × α)) (name : α → String) (n : Nat) :
    (keyword known name).DepthAtMost n := fun _ => Nat.zero_le n

@[simp] theorem DepthAtMost.option {c : Codec α} {n : Nat} (h : c.DepthAtMost n) :
    c.option.DepthAtMost n := fun a =>
  match a with
  | none => Nat.zero_le n
  | some a => h a

@[simp] theorem DepthAtMost.list {c : Codec α} {n : Nat} (h : c.DepthAtMost n) :
    c.list.DepthAtMost (n + 1) := fun as => by
  show Value.itemsDepth (as.map c.write) + 1 ≤ n + 1
  rw [Nat.add_le_add_iff_right, Value.itemsDepth_le_iff]
  intro v hv
  obtain ⟨a, -, rfl⟩ := List.mem_map.1 hv
  exact h a

@[simp] theorem DepthAtMost.nameMap {c : Codec α} {n : Nat} (h : c.DepthAtMost n) :
    (Codec.nameMap c).DepthAtMost (n + 1) := fun m => by
  show Value.membersDepth (m.entries.map fun e => (e.1, c.write e.2)) + 1 ≤ n + 1
  rw [Nat.add_le_add_iff_right, Value.membersDepth_le_iff]
  intro member hm
  obtain ⟨e, -, rfl⟩ := List.mem_map.1 hm
  exact h e.2

@[simp] theorem nameSet_depth (n : Nat) : nameSet.DepthAtMost (n + 1) := fun s =>
  (string_depth n).list s.toList

@[simp] theorem DepthAtMost.convert {c : Codec α} {n : Nat} (h : c.DepthAtMost n) (into : α → β)
    (back : β → α) : (c.convert into back).DepthAtMost n := fun b => h (back b)

end Codec

end BuildCapture.Json
