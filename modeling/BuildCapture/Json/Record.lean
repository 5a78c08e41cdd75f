import BuildCapture.Json.Codec
set_option autoImplicit false

/-!
Records: a type described once by its fields gets a codec. A record is written as an object of all
its fields in their order. It is read from an object, where unknown names are skipped, or from an
array of its fields.
-/

namespace BuildCapture.Json

structure RecordField (α : Type) where
  name : String
  codec : Codec α
  /-- The value where an object lacks the field. -/
  absent : Option α
  /-- The value where an array ends before the field. -/
  short : Option α

namespace RecordField

variable {α : Type}

def required (name : String) (codec : Codec α) : RecordField α := ⟨name, codec, none, none⟩

def defaulted (name : String) (codec : Codec α) (value : α) : RecordField α :=
  ⟨name, codec, some value, some value⟩

/-- A field that an object may lack and an array may not. -/
def nullable (name : String) (codec : Codec α) : RecordField (Option α) :=
  ⟨name, codec.option, some none, none⟩

def text (name : String) : RecordField (Option String) := defaulted name Codec.string.option none

def texts (name : String) : RecordField (List String) := defaulted name Codec.string.list []

end RecordField

/-- The fields of a record in their order. The first parameter is the type of their values together,
the second one that of the values met so far. -/
inductive RecordFields : Type → Type → Type 1 where
  | nil : RecordFields Unit Unit
  | cons {α β σ : Type} (field : RecordField α) (rest : RecordFields β σ) :
    RecordFields (α × β) (Option α × σ)

namespace RecordFields

def names : {β σ : Type} → RecordFields β σ → List String
  | _, _, .nil => []
  | _, _, .cons field rest => field.name :: rest.names

def count {β σ : Type} (fs : RecordFields β σ) : Nat := fs.names.length

def empty : {β σ : Type} → RecordFields β σ → σ
  | _, _, .nil => ()
  | _, _, .cons _ rest => (none, rest.empty)

/-- Reads the value of a named field into its slot; none if there is no such field. A name that
comes again is refused before its value is looked at. -/
def put (frame : Frame) (name : String) (t : Tree) :
    {β σ : Type} → RecordFields β σ → σ → Except Error (Option σ)
  | _, _, .nil, _ => .ok none
  | _, _, .cons field rest, (slot, slots) =>
    if name = field.name then
      if slot.isSome then refuse (.duplicateField name)
      else do return some (some (← field.codec.read frame t), slots)
    else do return (← rest.put frame name t slots).map (slot, ·)

def readMembers {β σ : Type} (fs : RecordFields β σ) (frame : Frame)
    (other : Tree → Except Fault Unit) : σ → List (Key × Tree) → Except Error σ
  | slots, [] => .ok slots
  | slots, (key, t) :: rest => do
    let name ← ofFault key.read
    match ← fs.put frame name t slots with
    | some slots => fs.readMembers frame other slots rest
    | none =>
      ofFault (other t)
      fs.readMembers frame other slots rest

def finish : {β σ : Type} → RecordFields β σ → σ → Except Error β
  | _, _, .nil, _ => .ok ()
  | _, _, .cons field rest, (slot, slots) =>
    match slot.or field.absent with
    | some a => do return (a, ← rest.finish slots)
    | none => refuse (.missingField field.name)

/-- Reads the fields from the items of an array; also returns the items left over. -/
def readItems (frame : Frame) (close : Close) (tooShort : Nat → Mismatch) :
    {β σ : Type} → RecordFields β σ → (place : Nat) → List Tree → Except Error (β × List Tree)
  | _, _, .nil, _, items => .ok ((), items)
  | _, _, .cons field rest, place, [] => do
    ofFault close
    match field.short with
    | some a =>
      let (others, left) ← rest.readItems frame close tooShort (place + 1) []
      return ((a, others), left)
    | none => refuse (tooShort place)
  | _, _, .cons field rest, place, t :: items => do
    let a ← field.codec.read frame t
    let (others, left) ← rest.readItems frame close tooShort (place + 1) items
    return ((a, others), left)

def write : {β σ : Type} → RecordFields β σ → β → List (String × Value)
  | _, _, .nil, _ => []
  | _, _, .cons field rest, (a, others) => (field.name, field.codec.write a) :: rest.write others

end RecordFields

structure Record (α : Type) where
  name : String
  {Parts Slots : Type}
  fields : RecordFields Parts Slots
  build : Parts → α
  parts : α → Parts

namespace Record

variable {α : Type}

def readMembers (r : Record α) (frame : Frame) (members : List (Key × Tree)) (close : Close) :
    Except Error α := do
  let slots ← r.fields.readMembers frame Tree.skip r.fields.empty members
  ofFault close
  return r.build (← r.fields.finish slots)

/-- Items past the last field are a fault of a text, and a mismatch of content taken in before. -/
def surplus (r : Record α) (frame : Frame) (left : List Tree) : Error :=
  if frame.taken then
    .mismatch (.wrongLength (r.fields.count + left.length) (.elements r.fields.count))
  else .fault .malformed

def readItems (r : Record α) (frame : Frame) (items : List Tree) (close : Close) :
    Except Error α := do
  let tooShort place := .wrongLength place (.recordOf r.name r.fields.count)
  let (parts, left) ← r.fields.readItems frame close tooShort 0 items
  if left.isEmpty then ofFault close else .error (r.surplus frame left)
  return r.build parts

def members (r : Record α) (a : α) : List (String × Value) := r.fields.write (r.parts a)

def codec (r : Record α) : Codec α where
  read frame t := do
    match t with
    | .object members close => r.readMembers (← frame.enter) members close
    | .array items close => r.readItems (← frame.enter) items close
    | t => Codec.wrongType (.record r.name) t
  write a := .object (r.members a)

end Record

end BuildCapture.Json
