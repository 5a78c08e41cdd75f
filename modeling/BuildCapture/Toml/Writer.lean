set_option autoImplicit false

namespace BuildCapture.Toml

def isControl (c : Char) : Bool := c.toNat < 32 && c ≠ '\t' && c ≠ '\n' || c.toNat = 127

def hasRun (c : Char) (count : Nat) : List Char → Bool
  | [] => count = 0
  | d :: rest => (d :: rest).take count = List.replicate count c || hasRun c count rest

def hexPair (n : Nat) : List Char :=
  [(Nat.digitChar (n / 16)).toUpper, (Nat.digitChar (n % 16)).toUpper]

def escaped (lines : Bool) (c : Char) : List Char :=
  match c with
  | '\x08' => ['\\', 'b']
  | '\t' => ['\\', 't']
  | '\x0c' => ['\\', 'f']
  | '\r' => ['\\', 'r']
  | '\\' => ['\\', '\\']
  | '\n' => if lines then ['\n'] else ['\\', 'n']
  | c => if isControl c then '\\' :: 'u' :: '0' :: '0' :: hexPair c.toNat else [c]

/-- The characters between double quotes. A quote is escaped on one line, and over several lines if
it is the third in a row; `quotes` of them have gone before. -/
def escapedAll (lines : Bool) : (quotes : Nat) → List Char → List Char
  | _, [] => []
  | quotes, c :: rest =>
    if c = '"' then
      if lines ∧ quotes < 2 then '"' :: escapedAll lines (quotes + 1) rest
      else '\\' :: '"' :: escapedAll lines 0 rest
    else escaped lines c ++ escapedAll lines 0 rest

def basicWire (s : List Char) : List Char := '"' :: escapedAll false 0 s ++ ['"']

def literalWire (s : List Char) : List Char := '\'' :: s ++ ['\'']

def lineStart (s : List Char) : List Char := if '\n' ∈ s then ['\n'] else []

def basicLinesWire (s : List Char) : List Char :=
  ['"', '"', '"'] ++ lineStart s ++ escapedAll true 0 s ++ ['"', '"', '"']

def literalLinesWire (s : List Char) : List Char :=
  ['\'', '\'', '\''] ++ lineStart s ++ s ++ ['\'', '\'', '\'']

/-- A string in the first form that holds it without escapes, but for tabs; else with escapes. -/
def stringWire (s : List Char) : List Char :=
  let control := s.any isControl
  if !control ∧ '\\' ∉ s ∧ '"' ∉ s ∧ '\n' ∉ s then basicWire s
  else if !control ∧ '\'' ∉ s ∧ '\n' ∉ s then literalWire s
  else if !control ∧ '\\' ∉ s ∧ !hasRun '"' 3 s then basicLinesWire s
  else if !control ∧ !hasRun '\'' 3 s then literalLinesWire s
  else if '\n' ∈ s then basicLinesWire s
  else basicWire s

def entryWire (key value : String) : List Char :=
  key.toList ++ [' ', '=', ' '] ++ stringWire value.toList ++ ['\n']

def tableWire (name : String) (entries : List (String × String)) : List Char :=
  '[' :: name.toList ++ [']', '\n'] ++ entries.flatMap fun e => entryWire e.1 e.2

def write (tables : List (String × List (String × String))) : String :=
  String.ofList (['\n'].intercalate (tables.map fun t => tableWire t.1 t.2))

end BuildCapture.Toml
