import BuildCapture.Mismatch
import BuildCapture.Json.Value
set_option autoImplicit false

/-!
Texts read as far as they are JSON. A tree keeps, at the place where the text stops being JSON, how
it stops, so that a reader can meet shape errors and faults of the text in the order of the text.

A value can be met in two ways. To *read* it is to take its content; to *skip* it is to pass over
it. Skipping asks less: it takes surrogates without a partner and numbers beyond the range of
doubles.
-/

namespace BuildCapture.Json

inductive Fault where
  | malformed
  | ended
  deriving DecidableEq, Repr

inductive Scalar where
  | null
  | bool (value : Bool)
  | int (value : Int)
  | float (value : Decimal.Binary64)
  | string (value : String)
  deriving DecidableEq, Repr

def Scalar.found : Scalar → Found
  | .null => .null
  | .bool b => .bool b
  | .int n => .int n
  | .float x => .float x
  | .string s => .string s

/-- What stands where a value should: the outcomes of reading and of skipping it. -/
structure Leaf where
  /-- The first character; none if there is no place for a value. -/
  start : Option Char
  read : Except Fault Scalar
  skip : Except Fault Unit

structure Key where
  read : Except Fault String
  skip : Except Fault Unit

abbrev Close := Except Fault Unit

inductive Tree where
  | leaf (leaf : Leaf)
  | array (items : List Tree) (close : Close)
  | object (members : List (Key × Tree)) (close : Close)

namespace Leaf

def ofScalar (start : Char) (s : Scalar) : Leaf := ⟨some start, .ok s, .ok ()⟩

def missing (fault : Fault) : Leaf := ⟨none, .error fault, .error fault⟩

end Leaf

def Key.missing (fault : Fault) : Key := ⟨.error fault, .error fault⟩

def Key.ofString (s : String) : Key := ⟨.ok s, .ok ()⟩

def Key.isOneOf (key : Key) (names : List String) : Bool :=
  match key.read with
  | .ok name => names.contains name
  | .error _ => false

namespace Tree

/-- What stands at the place of a value, looking into scalars only. -/
def found : Tree → Except Fault Found
  | .leaf l => l.read.map Scalar.found
  | .array _ _ => .ok .sequence
  | .object _ _ => .ok .map

mutual

def skip : Tree → Except Fault Unit
  | .leaf l => l.skip
  | .array items close => do skipItems items; close
  | .object members close => do skipMembers members; close

def skipItems : List Tree → Except Fault Unit
  | [] => .ok ()
  | t :: rest => do t.skip; skipItems rest

def skipMembers : List (Key × Tree) → Except Fault Unit
  | [] => .ok ()
  | (key, t) :: rest => do key.skip; t.skip; skipMembers rest

end

mutual

def take (room : Nat) : Tree → Except Fault Unit
  | .leaf l => l.read.map fun _ => ()
  | .array items close =>
    if room = 0 then .error .malformed else do takeItems (room - 1) items; close
  | .object members close =>
    if room = 0 then .error .malformed else do takeMembers (room - 1) members; close

def takeItems (room : Nat) : List Tree → Except Fault Unit
  | [] => .ok ()
  | t :: rest => do t.take room; takeItems room rest

def takeMembers (room : Nat) : List (Key × Tree) → Except Fault Unit
  | [] => .ok ()
  | (key, t) :: rest => do let _ ← key.read; t.take room; takeMembers room rest

end

end Tree

mutual

def Value.tree : Value → Tree
  | .null => .leaf (.ofScalar 'n' .null)
  | .bool true => .leaf (.ofScalar 't' (.bool true))
  | .bool false => .leaf (.ofScalar 'f' (.bool false))
  | .int n => .leaf (.ofScalar ((Numeral.ofInt n).headD '0') (.int n))
  | .string s => .leaf (.ofScalar '"' (.string s))
  | .array items => .array (itemTrees items) (.ok ())
  | .object members => .object (memberTrees members) (.ok ())

def Value.itemTrees : List Value → List Tree
  | [] => []
  | v :: rest => v.tree :: itemTrees rest

def Value.memberTrees : List (String × Value) → List (Key × Tree)
  | [] => []
  | (name, v) :: rest => (.ofString name, v.tree) :: memberTrees rest

end

end BuildCapture.Json
