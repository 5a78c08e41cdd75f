import BuildCapture.Json.Tree
set_option autoImplicit false

namespace BuildCapture.Json

/-- What a scanner finds: the outcome of reading, and what skipping leaves of the text. -/
structure Scanned (α : Type) where
  read : Except Fault α
  rest : Except Fault (List Char)

namespace Scanned

variable {α β : Type}

def fail (fault : Fault) : Scanned α := ⟨.error fault, .error fault⟩

def map (f : α → β) (s : Scanned α) : Scanned β := ⟨s.read.map f, s.rest⟩

def skip (s : Scanned α) : Except Fault Unit := s.rest.map fun _ => ()

end Scanned

inductive Piece where
  | char (c : Char)
  | unit (n : Nat)
  deriving DecidableEq, Repr

/-- What the last characters of a literal have begun: nothing, an escape, or a code unit of which so
many digits are still to come. -/
inductive Pending where
  | nothing
  | escape
  | unit (digits : Nat) (value : Nat)
  deriving DecidableEq, Repr

def unescape : Char → Option Char
  | '"' => some '"'
  | '\\' => some '\\'
  | '/' => some '/'
  | 'b' => some '\x08'
  | 'f' => some '\x0c'
  | 'n' => some '\n'
  | 'r' => some '\r'
  | 't' => some '\t'
  | _ => none

def hexValue (c : Char) : Option Nat :=
  if c.isDigit then some (c.toNat - '0'.toNat)
  else if 'a' ≤ c ∧ c ≤ 'f' then some (c.toNat - 'a'.toNat + 10)
  else if 'A' ≤ c ∧ c ≤ 'F' then some (c.toNat - 'A'.toNat + 10)
  else none

/-- Whether at least four bytes are left; a code unit cut short by the end of the text is told from
a wrong one by their number alone. -/
def fourBytesLeft (s : List Char) : Bool := 4 ≤ (String.ofList (s.take 4)).utf8ByteSize

def pieces : Pending → List Char → List Piece × Except Fault (List Char)
  | _, [] => ([], .error .ended)
  | .nothing, c :: rest =>
    if c = '"' then ([], .ok rest)
    else if c = '\\' then pieces .escape rest
    else if c.toNat < 32 then ([], .error .malformed)
    else (pieces .nothing rest).map (.char c :: ·) id
  | .escape, c :: rest =>
    if c = 'u' then if fourBytesLeft rest then pieces (.unit 3 0) rest else ([], .error .ended)
    else
      match unescape c with
      | some d => (pieces .nothing rest).map (.char d :: ·) id
      | none => ([], .error .malformed)
  | .unit left value, c :: rest =>
    match hexValue c with
    | none => ([], .error .malformed)
    | some digit =>
      match left with
      | 0 => (pieces .nothing rest).map (.unit (16 * value + digit) :: ·) id
      | left + 1 => pieces (.unit left (16 * value + digit)) rest

def isHighSurrogate (n : Nat) : Bool := 0xD800 ≤ n && n ≤ 0xDBFF

def isLowSurrogate (n : Nat) : Bool := 0xDC00 ≤ n && n ≤ 0xDFFF

def pairUp (high low : Nat) : Char :=
  Char.ofNat (0x10000 + (high - 0xD800) * 0x400 + (low - 0xDC00))

def assemble (stop : Except Fault Unit) : List Piece → Except Fault (List Char)
  | [] => stop.map fun _ => []
  | .char c :: rest => (assemble stop rest).map (c :: ·)
  | .unit n :: rest =>
    if isLowSurrogate n then .error .malformed
    else if isHighSurrogate n then
      match rest with
      | .unit m :: rest =>
        if isLowSurrogate m then (assemble stop rest).map (pairUp n m :: ·) else .error .malformed
      | .char _ :: _ => .error .malformed
      | [] => do stop; .error .malformed
    else (assemble stop rest).map (Char.ofNat n :: ·)

/-- A literal, the opening quote already taken. -/
def scanString (s : List Char) : Scanned String :=
  let (found, rest) := pieces .nothing s
  ⟨(assemble (rest.map fun _ => ()) found).map String.ofList, rest⟩

end BuildCapture.Json
