import BuildCapture.Mismatch
set_option autoImplicit false

/-!
TOML documents as trees of tables, and how statements add to them. Tables keep their keys in the
order in which they came, and how they came about: that decides what may still be added to them.
-/

namespace BuildCapture.Toml

inductive Origin where
  /-- By a header of its own. -/
  | defined
  /-- By a header that goes through it. -/
  | implied
  /-- By a dotted key that goes through it. -/
  | dotted
  /-- As a value; nothing may be added to it. -/
  | inline
  deriving DecidableEq, Repr

inductive Node where
  | string (value : String)
  | int (value : Int)
  | float (value : Decimal.Binary64)
  | bool (value : Bool)
  | dateTime
  | array (items : List Node)
  | table (origin : Origin) (entries : List (String × Node))
  /-- Tables under one header, each one a table. -/
  | tables (items : List Node)
  deriving Inhabited

abbrev Entries := List (String × Node)

/-- A dotted key: the tables it goes through, and the name in the last one. -/
structure KeyPath where
  parents : List String
  name : String
  deriving DecidableEq, Repr

inductive Statement where
  | header (path : KeyPath)
  | tablesHeader (path : KeyPath)
  | entry (path : KeyPath) (value : Node)

def Node.found : Node → Found
  | .string s => .string s
  | .int n => .int n
  | .float x => .float x
  | .bool b => .bool b
  | .dateTime => .map
  | .array _ => .sequence
  | .table _ _ => .map
  | .tables _ => .sequence

namespace Entries

def remove (name : String) (es : Entries) : Entries := es.filter (·.1 ≠ name)

def replace (name : String) (node : Node) (es : Entries) : Entries :=
  es.map fun e => if e.1 = name then (name, node) else e

/-- Changes the table at the end of a path by `change`, which is given the table's origin. Missing
tables on the way are added; `dotted` if the path is a key and not a header. -/
def descend (dotted : Bool) (change : Origin → Entries → Option Entries) :
    List String → Origin → Entries → Option Entries
  | [], origin, es => change origin es
  | name :: path, _, es =>
    match es.lookup name with
    | none =>
      let origin := if dotted then Origin.dotted else Origin.implied
      (descend dotted change path origin []).map fun sub => es ++ [(name, .table origin sub)]
    | some (.table origin sub) =>
      if origin = .inline ∨ dotted ∧ origin = .defined then none
      else (descend dotted change path origin sub).map fun sub =>
        replace name (.table origin sub) es
    | some (.tables items) =>
      match items.getLast? with
      | some (.table origin sub) =>
        (descend dotted change path origin sub).map fun sub =>
          replace name (.tables (items.dropLast ++ [.table origin sub])) es
      | _ => none
    | some _ => none

def addNew (name : String) (node : Node) (es : Entries) : Option Entries :=
  if (es.lookup name).isSome then none else some (es ++ [(name, node)])

def addEntry (path : KeyPath) (node : Node) (es : Entries) : Option Entries :=
  descend true (fun origin es =>
    if path.parents.isEmpty ∨ origin = .dotted then addNew path.name node es else none)
    path.parents .defined es

/-- Opens the table of a header. One that other headers implied moves behind the tables defined so
far. -/
def addHeader (path : KeyPath) (es : Entries) : Option Entries :=
  descend false (fun _ es =>
    match es.lookup path.name with
    | none => some (es ++ [(path.name, .table .defined [])])
    | some (.table .implied sub) => some (remove path.name es ++ [(path.name, .table .defined sub)])
    | some _ => none)
    path.parents .defined es

def addTable (path : KeyPath) (es : Entries) : Option Entries :=
  descend false (fun _ es =>
    match es.lookup path.name with
    | none => some (es ++ [(path.name, .tables [.table .defined []])])
    | some (.tables items) => some (replace path.name (.tables (items ++ [.table .defined []])) es)
    | some _ => none)
    path.parents .defined es

/-- Adds statements in their order, the first ones to the table of `header`; none if one of them
defines again what is defined. -/
def addAll : (header : List String) → List Statement → Entries → Option Entries
  | _, [], es => some es
  | _, .header path :: rest, es => do
    addAll (path.parents ++ [path.name]) rest (← addHeader path es)
  | _, .tablesHeader path :: rest, es => do
    addAll (path.parents ++ [path.name]) rest (← addTable path es)
  | header, .entry path node :: rest, es => do
    addAll header rest (← descend false (fun _ es => addEntry path node es) header .defined es)

end Entries

end BuildCapture.Toml
