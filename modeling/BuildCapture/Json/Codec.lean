import BuildCapture.Json.Scan
import BuildCapture.Names.NameMap
import BuildCapture.Time.Rfc3339.Writer
set_option autoImplicit false

/-!
Codecs: one side reads a value from a tree, the other writes it. Readers go through the text in its
order, and the first fault or mismatch on the way wins.
-/

namespace BuildCapture.Json

inductive Error where
  | fault (fault : Fault)
  | mismatch (mismatch : Mismatch)
  deriving DecidableEq, Repr

def ofFault {α : Type} (e : Except Fault α) : Except Error α := e.mapError .fault

def refuse {α : Type} (m : Mismatch) : Except Error α := .error (.mismatch m)

structure Frame where
  /-- How many more containers may be opened one inside the other. -/
  room : Nat
  /-- Whether the content has been taken in as a whole before. -/
  taken : Bool
  deriving DecidableEq, Repr

namespace Frame

/-- At most 127 containers are read one inside the other. -/
def top : Frame := ⟨127, false⟩

def enter (frame : Frame) : Except Error Frame :=
  match frame.room with
  | 0 => .error (.fault .malformed)
  | room + 1 => .ok { frame with room }

end Frame

structure Codec (α : Type) where
  read : Frame → Tree → Except Error α
  write : α → Value

namespace Codec

variable {α β : Type}

def wrongType (wanted : Wanted) (t : Tree) : Except Error α := do
  refuse (.wrongType (← ofFault t.found) wanted)

def string : Codec String where
  read _ t := do
    match ← ofFault t.found with
    | .string s => .ok s
    | found => refuse (.wrongType found .string)
  write := .string

def bool : Codec Bool where
  read _ t := do
    match ← ofFault t.found with
    | .bool b => .ok b
    | found => refuse (.wrongType found .boolean)
  write := .bool

def readInt (low high : Int) (wanted : Wanted) (t : Tree) : Except Error Int := do
  match ← ofFault t.found with
  | .int n => if low ≤ n ∧ n ≤ high then .ok n else refuse (.outOfRange n wanted)
  | found => refuse (.wrongType found wanted)

def int32 : Codec Int32 where
  read _ t := (readInt Int32.minValue.toInt Int32.maxValue.toInt .int32 t).map Int32.ofInt
  write n := .int n.toInt

def int64 : Codec Int64 where
  read _ t := (readInt Int64.minValue.toInt Int64.maxValue.toInt .int64 t).map Int64.ofInt
  write n := .int n.toInt

def word32 : Codec UInt32 where
  read _ t := (readInt 0 (UInt32.size - 1) .word32 t).map fun n => UInt32.ofNat n.toNat
  write n := .int n.toNat

def instant : Codec Instant where
  read _ t := do
    match ← ofFault t.found with
    | .string s => (Rfc3339.read s).mapError (.mismatch ∘ .dateTime)
    | found => refuse (.wrongType found .dateTime)
  write t := .string (Rfc3339.write t)

def startsNull : Tree → Bool
  | .leaf l => l.start = some 'n'
  | _ => false

/-- Reads `null` as none. A value that starts like `null` is read as nothing else. -/
def option (c : Codec α) : Codec (Option α) where
  read frame t :=
    if startsNull t then (ofFault t.found).map fun _ => none
    else (c.read frame t).map some
  write
    | some a => c.write a
    | none => .null

def list (c : Codec α) : Codec (List α) where
  read frame t := do
    match t with
    | .array items close =>
      let inner ← frame.enter
      let as ← items.mapM (c.read inner)
      ofFault close
      return as
    | t => wrongType .sequence t
  write as := .array (as.map c.write)

def nameSet : Codec NameSet where
  read frame t := (string.list.read frame t).map NameSet.ofList
  write s := .array (s.toList.map .string)

def readEntry (c : Codec α) (frame : Frame) (member : Key × Tree) : Except Error (String × α) := do
  let name ← ofFault member.1.read
  return (name, ← c.read frame member.2)

def nameMap (c : Codec α) : Codec (NameMap α) where
  read frame t := do
    match t with
    | .object members close =>
      let inner ← frame.enter
      let entries ← members.mapM (readEntry c inner)
      ofFault close
      return .ofList entries
    | t => wrongType .map t
  write m := .object (m.entries.map fun e => (e.1, c.write e.2))

def convert (c : Codec α) (into : α → β) (back : β → α) : Codec β where
  read frame t := (c.read frame t).map into
  write b := c.write (back b)

def lookUp (known : List (String × α)) (name : String) : Except Error α :=
  match known.lookup name with
  | some a => .ok a
  | none => refuse (.unknownKeyword name (known.map Prod.fst))

/-- The keyword of an object that maps it to `null` and holds nothing else. -/
def readKeywordObject (known : List (String × α)) (members : List (Key × Tree)) (close : Close) :
    Except Error α := do
  match members with
  | [] =>
    ofFault close
    .error (.fault .malformed)
  | (key, t) :: rest =>
    let a ← lookUp known (← ofFault key.read)
    match ← ofFault t.found with
    | .null => if rest.isEmpty then ofFault close else .error (.fault .malformed)
    | found => refuse (.wrongType found .unit)
    return a

/-- One of the known names, as a string or as the key of an object that maps it to `null`. -/
def keyword (known : List (String × α)) (name : α → String) : Codec α where
  read frame t := do
    match t with
    | .leaf l =>
      match l.start with
      | some '"' | none =>
        match ← ofFault t.found with
        | .string s => lookUp known s
        | found => refuse (.wrongType found .keyword)
      | some _ => .error (.fault .malformed)
    | .array _ _ => .error (.fault .malformed)
    | .object members close => let _ ← frame.enter; readKeywordObject known members close
  write a := .string (name a)

def decode (c : Codec α) (s : String) : Except Error α := do
  let (t, rest) := scan s
  let a ← c.read .top t
  match rest.map dropSpace with
  | some [] => return a
  | _ => .error (.fault .malformed)

def encode (c : Codec α) (a : α) : String := (c.write a).write

end Codec

end BuildCapture.Json
