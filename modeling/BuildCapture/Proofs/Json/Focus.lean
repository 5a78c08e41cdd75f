import BuildCapture.Proofs.Json.Record
set_option autoImplicit false

namespace BuildCapture.Json

/-- The place of a field among the fields of a record. -/
inductive Focus {α : Type} (field : RecordField α) : {β σ : Type} → RecordFields β σ → Type 1 where
  | here {β σ : Type} {rest : RecordFields β σ} : Focus field (.cons field rest)
  | there {γ β σ : Type} {other : RecordField γ} {rest : RecordFields β σ}
    (place : Focus field rest) : Focus field (.cons other rest)

namespace Focus

variable {α β σ : Type} {field : RecordField α} {fs : RecordFields β σ}

def index : {β σ : Type} → {fs : RecordFields β σ} → Focus field fs → Nat
  | _, _, _, .here => 0
  | _, _, _, .there place => place.index + 1

def get : {β σ : Type} → {fs : RecordFields β σ} → Focus field fs → β → α
  | _, _, _, .here, (a, _) => a
  | _, _, _, .there place, (_, others) => place.get others

def set (a : α) : {β σ : Type} → {fs : RecordFields β σ} → Focus field fs → β → β
  | _, _, _, .here, (_, others) => (a, others)
  | _, _, _, .there place, (first, others) => (first, place.set a others)

def slot : {β σ : Type} → {fs : RecordFields β σ} → Focus field fs → σ → Option α
  | _, _, _, .here, (slot, _) => slot
  | _, _, _, .there place, (_, slots) => place.slot slots

def fill (a : α) : {β σ : Type} → {fs : RecordFields β σ} → Focus field fs → σ → σ
  | _, _, _, .here, (_, slots) => (some a, slots)
  | _, _, _, .there place, (slot, slots) => (slot, place.fill a slots)

theorem name_mem (place : Focus field fs) : field.name ∈ fs.names := by
  induction place with
  | here => exact List.mem_cons_self
  | there _ ih => exact List.mem_cons_of_mem _ ih

theorem fill_slot (place : Focus field fs) {a : α} {slots : σ} (h : place.slot slots = some a) :
    place.fill a slots = slots := by
  induction place with
  | here =>
    obtain ⟨slot, slots⟩ := slots
    obtain rfl : slot = some a := h
    rfl
  | there _ ih => exact congrArg (slots.1, ·) (ih h)

section
variable (place : Focus field fs) (frame : Frame) (t : Tree)

theorem put_name (distinct : fs.names.Nodup) {slots : σ} (empty : place.slot slots = none) :
    fs.put frame field.name t slots =
      (field.codec.read frame t).map fun a => some (place.fill a slots) := by
  induction place with
  | here =>
    obtain ⟨slot, slots⟩ := slots
    obtain rfl : slot = none := empty
    simp only [RecordFields.put, if_true, Option.isSome_none, Bool.false_eq_true, if_false]
    cases field.codec.read frame t <;> rfl
  | @there _ _ _ other _ place ih =>
    obtain ⟨slot, slots⟩ := slots
    obtain ⟨fresh, distinct⟩ := List.nodup_cons.1 distinct
    have ne : field.name ≠ other.name := fun same => fresh (same ▸ place.name_mem)
    rw [RecordFields.put, if_neg ne, ih distinct empty]
    cases field.codec.read frame t <;> rfl

theorem put_name_fill (distinct : fs.names.Nodup) (a : α) (slots : σ) :
    fs.put frame field.name t (place.fill a slots) = refuse (.duplicateField field.name) := by
  induction place with
  | here => simp [fill, RecordFields.put]
  | @there _ _ _ other _ place ih =>
    obtain ⟨slot, slots⟩ := slots
    obtain ⟨fresh, distinct⟩ := List.nodup_cons.1 distinct
    have ne : field.name ≠ other.name := fun same => fresh (same ▸ place.name_mem)
    rw [fill, RecordFields.put, if_neg ne, ih distinct]
    rfl

theorem put_fill {name : String} (ne : name ≠ field.name) (a : α) (slots : σ) :
    fs.put frame name t (place.fill a slots) =
      (fs.put frame name t slots).map (Option.map (place.fill a)) := by
  induction place with
  | @here _ _ rest =>
    obtain ⟨slot, slots⟩ := slots
    rw [fill, RecordFields.put, RecordFields.put, if_neg ne, if_neg ne]
    cases rest.put frame name t slots with
    | error e => rfl
    | ok found => cases found <;> rfl
  | @there _ _ _ other rest place ih =>
    obtain ⟨slot, slots⟩ := slots
    rw [fill, RecordFields.put, RecordFields.put]
    split
    case isTrue =>
      split
      case isTrue => rfl
      case isFalse => cases other.codec.read frame t <;> rfl
    case isFalse =>
      rw [ih]
      cases rest.put frame name t slots with
      | error e => rfl
      | ok found => cases found <;> rfl

end

section
variable (place : Focus field fs) {frame : Frame} {other : Tree → Except Fault Unit}

theorem readMembers_fill (distinct : fs.names.Nodup) {a : α} {slots found : σ}
    {members : List (Key × Tree)}
    (h : fs.readMembers frame other (place.fill a slots) members = .ok found) :
    ∃ others, found = place.fill a others ∧
      ∀ b, fs.readMembers frame other (place.fill b slots) members = .ok (place.fill b others) := by
  induction members generalizing slots with
  | nil =>
    cases h
    exact ⟨slots, rfl, fun _ => rfl⟩
  | cons m members ih =>
    obtain ⟨key, t⟩ := m
    obtain ⟨name, named, h⟩ := bind_eq_ok_iff.1 h
    obtain ⟨put, kept, h⟩ := bind_eq_ok_iff.1 h
    -- The slot of the field is full, so another member of its name would have been refused.
    have ne : name ≠ field.name := by
      rintro rfl
      rw [put_name_fill place frame t distinct] at kept
      cases kept
    rw [put_fill place frame t ne] at kept
    obtain ⟨put, stored, rfl⟩ := map_eq_ok_iff.1 kept
    have again (b : α) : fs.put frame name t (place.fill b slots) =
        .ok (put.map (place.fill b)) := by
      rw [put_fill place frame t ne, stored]
      rfl
    simp only [RecordFields.readMembers, named, bind, Except.bind, again]
    cases put with
    | some slots => exact ih h
    | none =>
      obtain ⟨passed, skipped, h⟩ := bind_eq_ok_iff.1 h
      simp only [Option.map_none, skipped]
      exact ih h

theorem readMembers_append (slots : σ) (before after : List (Key × Tree)) :
    fs.readMembers frame other slots (before ++ after) =
      fs.readMembers frame other slots before >>= fun slots =>
        fs.readMembers frame other slots after := by
  induction before generalizing slots with
  | nil => rfl
  | cons m before ih =>
    obtain ⟨key, t⟩ := m
    simp only [List.cons_append, RecordFields.readMembers, bind_assoc]
    refine bind_congr fun name => bind_congr fun put => ?_
    cases put with
    | some slots => exact ih slots
    | none => simp only [bind_assoc, ih]

theorem finish_fill {a : α} {slots : σ} {parts : β}
    (h : fs.finish (place.fill a slots) = .ok parts) :
    place.get parts = a ∧ ∀ b, fs.finish (place.fill b slots) = .ok (place.set b parts) := by
  induction place with
  | here =>
    obtain ⟨others, finished, same⟩ := bind_eq_ok_iff.1 h
    cases same
    refine ⟨rfl, fun b => ?_⟩
    simp only [fill, RecordFields.finish, Option.some_or, finished, bind, Except.bind]
    rfl
  | @there _ _ _ field' rest place ih =>
    obtain ⟨slot, slots⟩ := slots
    rw [fill, RecordFields.finish] at h
    cases held : slot.or field'.absent with
    | none =>
      rw [held] at h
      cases h
    | some first =>
      rw [held] at h
      obtain ⟨others, finished, same⟩ := bind_eq_ok_iff.1 h
      cases same
      obtain ⟨got, again⟩ := ih finished
      refine ⟨got, fun b => ?_⟩
      simp only [fill, RecordFields.finish, held, again b, bind, Except.bind]
      rfl

/-- Where the members are read, the field's is read as the part in its place; with any other value
there that the field reads, they are read as the same parts but for that one. -/
theorem readMembers_set (distinct : fs.names.Nodup) {before after : List (Key × Tree)} {key : Key}
    (named : key.read = .ok field.name) {t : Tree} {slots : σ} {parts : β}
    (read : fs.readMembers frame other fs.empty (before ++ (key, t) :: after) = .ok slots)
    (finished : fs.finish slots = .ok parts) :
    field.codec.read frame t = .ok (place.get parts) ∧
    ∀ t' b, field.codec.read frame t' = .ok b → ∃ slots',
      fs.readMembers frame other fs.empty (before ++ (key, t') :: after) = .ok slots' ∧
        fs.finish slots' = .ok (place.set b parts) := by
  rw [readMembers_append] at read
  obtain ⟨earlier, readBefore, read⟩ := bind_eq_ok_iff.1 read
  obtain ⟨name, named', read⟩ := bind_eq_ok_iff.1 read
  obtain rfl : field.name = name := by
    rw [named] at named'
    exact Except.ok.inj named'
  obtain ⟨put, stored, read⟩ := bind_eq_ok_iff.1 read
  cases empty : place.slot earlier with
  | some a =>
    rw [← place.fill_slot empty, put_name_fill place frame t distinct] at stored
    cases stored
  | none =>
    rw [put_name place frame t distinct empty] at stored
    obtain ⟨a, readField, rfl⟩ := map_eq_ok_iff.1 stored
    obtain ⟨others, rfl, again⟩ := readMembers_fill place distinct read
    obtain ⟨rfl, finishedAgain⟩ := finish_fill place finished
    refine ⟨readField, fun t' b readOther => ⟨place.fill b others, ?_, finishedAgain b⟩⟩
    rw [readMembers_append, readBefore]
    have stored := put_name place frame t' distinct empty
    rw [readOther] at stored
    simp only [RecordFields.readMembers, named, Codec.ofFault_ok, bind, Except.bind, stored,
      Except.map]
    exact again b

theorem readItems_set {close : Close} {tooShort : Nat → Mismatch} {n : Nat}
    {before after : List Tree} (here : before.length = place.index) {t : Tree} {parts : β}
    {left : List Tree}
    (read : fs.readItems frame close tooShort n (before ++ t :: after) = .ok (parts, left)) :
    field.codec.read frame t = .ok (place.get parts) ∧
    ∀ t' b, field.codec.read frame t' = .ok b →
      fs.readItems frame close tooShort n (before ++ t' :: after) =
        .ok (place.set b parts, left) := by
  induction place generalizing before n with
  | here =>
    obtain rfl : before = [] := List.eq_nil_of_length_eq_zero here
    obtain ⟨a, readField, read⟩ := bind_eq_ok_iff.1 read
    obtain ⟨others, readOthers, same⟩ := bind_eq_ok_iff.1 read
    cases same
    refine ⟨readField, fun t' b readOther => ?_⟩
    simp only [List.nil_append, RecordFields.readItems, readOther, readOthers, bind, Except.bind]
    rfl
  | there place ih =>
    cases before with
    | nil => cases here
    | cons first before =>
      obtain ⟨a, readFirst, read⟩ := bind_eq_ok_iff.1 read
      obtain ⟨others, readOthers, same⟩ := bind_eq_ok_iff.1 read
      cases same
      obtain ⟨readField, again⟩ := ih (Nat.succ_inj.1 here) readOthers
      refine ⟨readField, fun t' b readOther => ?_⟩
      simp only [List.cons_append, RecordFields.readItems, readFirst, again t' b readOther, bind,
        Except.bind]
      rfl

/-- Two trees of a record that hold these values in the place of the field and are the same
otherwise. -/
inductive Differ (place : Focus field fs) (t t' : Tree) : Tree → Tree → Prop where
  | object {before after : List (Key × Tree)} {key : Key} {close : Close}
    (named : key.read = .ok field.name) :
    Differ place t t' (.object (before ++ (key, t) :: after) close)
      (.object (before ++ (key, t') :: after) close)
  | array {before after : List Tree} {close : Close} (here : before.length = place.index) :
    Differ place t t' (.array (before ++ t :: after) close)
      (.array (before ++ t' :: after) close)

end

end Focus

/-- Documents of a record that hold these values under the name of a field, or at its index where
the fields stand in an array, and are the same otherwise. -/
inductive Document.Exchanged (name : String) (index : Nat) (v v' : Document) :
    Document → Document → Prop where
  | object {before after : List (Literal × Document)} {key : Literal}
    (named : key.read = .ok name) :
    Exchanged name index v v' (.object (before ++ (key, v) :: after))
      (.object (before ++ (key, v') :: after))
  | array {before after : List Document} (here : before.length = index) :
    Exchanged name index v v' (.array (before ++ v :: after)) (.array (before ++ v' :: after))

theorem Document.Exchanged.differ {α β σ : Type} {field : RecordField α} {fs : RecordFields β σ}
    (place : Focus field fs) {v v' d d' : Document}
    (h : Exchanged field.name place.index v v' d d') :
    place.Differ v.tree v'.tree d.tree d'.tree := by
  cases h with
  | @object before after key named =>
    have split (v : Document) : (Document.object (before ++ (key, v) :: after)).tree =
        .object (memberTrees before ++ (⟨key.read, .ok ()⟩, v.tree) :: memberTrees after)
          (.ok ()) :=
      congrArg (Tree.object · _) (memberTrees_append _ _)
    rw [split, split]
    exact .object named
  | @array before after here =>
    have split (v : Document) : (Document.array (before ++ v :: after)).tree =
        .array (before.map tree ++ v.tree :: after.map tree) (.ok ()) := by
      refine congrArg (Tree.array · _) ?_
      rw [itemTrees_eq_map, List.map_append, List.map_cons]
    rw [split, split]
    exact .array (by rw [List.length_map, here])

/-- Where a record is read, one with another value in the place of a field is read as the same
record but for that field. -/
theorem Record.codec_read_set {α γ : Type} {r : Record γ} {field : RecordField α}
    {place : Focus field r.fields} (distinct : r.fields.names.Nodup) {t t' tree tree' : Tree}
    (differ : place.Differ t t' tree tree') {frame : Frame} {x : γ}
    (read : r.codec.read frame tree = .ok x) :
    ∃ inner parts, frame.enter = .ok inner ∧ x = r.build parts ∧
      field.codec.read inner t = .ok (place.get parts) ∧
      ∀ b, field.codec.read inner t' = .ok b →
        r.codec.read frame tree' = .ok (r.build (place.set b parts)) := by
  cases differ with
  | object named =>
    obtain ⟨inner, slots, parts, entered, readMembers, rfl, finished, rfl⟩ :=
      codec_read_object_iff.1 read
    obtain ⟨readField, again⟩ := place.readMembers_set distinct named readMembers finished
    refine ⟨inner, parts, entered, rfl, readField, fun b readOther => ?_⟩
    obtain ⟨slots, readMembers, finished⟩ := again _ b readOther
    exact codec_read_object_iff.2 ⟨inner, slots, _, entered, readMembers, rfl, finished, rfl⟩
  | array here =>
    obtain ⟨inner, parts, entered, readItems, rfl, rfl⟩ := codec_read_array_iff.1 read
    obtain ⟨readField, again⟩ := place.readItems_set here readItems
    refine ⟨inner, parts, entered, rfl, readField, fun b readOther => ?_⟩
    exact codec_read_array_iff.2 ⟨inner, _, entered, again _ b readOther, rfl, rfl⟩

end BuildCapture.Json
