import BuildCapture.Text.Numeral
set_option autoImplicit false

namespace BuildCapture.Json

inductive Value where
  | null
  | bool (value : Bool)
  | int (value : Int)
  | string (value : String)
  | array (items : List Value)
  | object (members : List (String × Value))
  deriving Inhabited

def hexPair (n : Nat) : List Char := [Nat.digitChar (n / 16), Nat.digitChar (n % 16)]

def escaped (c : Char) : List Char :=
  match c with
  | '"' => ['\\', '"']
  | '\\' => ['\\', '\\']
  | '\x08' => ['\\', 'b']
  | '\x0c' => ['\\', 'f']
  | '\n' => ['\\', 'n']
  | '\r' => ['\\', 'r']
  | '\t' => ['\\', 't']
  | c => if c.toNat < 32 then '\\' :: 'u' :: '0' :: '0' :: hexPair c.toNat else [c]

def stringWire (s : String) : List Char := '"' :: s.toList.flatMap escaped ++ ['"']

namespace Value

mutual

def wire : Value → List Char
  | .null => ['n', 'u', 'l', 'l']
  | .bool true => ['t', 'r', 'u', 'e']
  | .bool false => ['f', 'a', 'l', 's', 'e']
  | .int n => Numeral.ofInt n
  | .string s => stringWire s
  | .array items => '[' :: [','].intercalate (itemWires items) ++ [']']
  | .object members => '\x7b' :: [','].intercalate (memberWires members) ++ ['\x7d']

def itemWires : List Value → List (List Char)
  | [] => []
  | v :: rest => v.wire :: itemWires rest

def memberWires : List (String × Value) → List (List Char)
  | [] => []
  | (name, v) :: rest => (stringWire name ++ ':' :: v.wire) :: memberWires rest

end

def block (opening closing : Char) (level : Nat) (lines : List (List Char)) : List Char :=
  let newline (level : Nat) := '\n' :: List.replicate (2 * level) ' '
  if lines.isEmpty then [opening, closing]
  else opening :: newline (level + 1) ++ (',' :: newline (level + 1)).intercalate lines ++
    newline level ++ [closing]

mutual

def indented (level : Nat) : Value → List Char
  | .array items => block '[' ']' level (itemLines level items)
  | .object members => block '\x7b' '\x7d' level (memberLines level members)
  | v => v.wire

def itemLines (level : Nat) : List Value → List (List Char)
  | [] => []
  | v :: rest => v.indented (level + 1) :: itemLines level rest

def memberLines (level : Nat) : List (String × Value) → List (List Char)
  | [] => []
  | (name, v) :: rest =>
    (stringWire name ++ ':' :: ' ' :: v.indented (level + 1)) :: memberLines level rest

end

def write (v : Value) : String := String.ofList v.wire

def writeIndented (v : Value) : String := String.ofList (v.indented 0)

end Value

end BuildCapture.Json
