import BuildCapture.Json.Text
set_option autoImplicit false

namespace BuildCapture.Toml

abbrev Read (α : Type) := List Char → Option (α × List Char)

def isBlank (c : Char) : Bool := c = ' ' || c = '\t'

def dropBlank (s : List Char) : List Char := s.dropWhile isBlank

/-- A character that may stand in comments and, but for quotes and backslashes, in strings. -/
def isPlain (c : Char) : Bool := c = '\t' || (32 ≤ c.toNat && c.toNat ≠ 127)

def isBare (c : Char) : Bool := c.isAlphanum || c = '-' || c = '_'

def unescape : Char → Option Char
  | '"' => some '"'
  | '\\' => some '\\'
  | 'b' => some '\x08'
  | 'f' => some '\x0c'
  | 'n' => some '\n'
  | 'r' => some '\r'
  | 't' => some '\t'
  | _ => none

def codeDigits : Char → Option Nat
  | 'u' => some 4
  | 'U' => some 8
  | _ => none

def charOfCode? (n : Nat) : Option Char := if n.isValidChar then some (Char.ofNat n) else none

def prepend (c : Char) (r : List Char × List Char) : List Char × List Char := (c :: r.1, r.2)

inductive Pending where
  | nothing
  | escape
  /-- A code point, of which so many digits more than one are to come. -/
  | code (digits : Nat) (value : Nat)
  /-- A line that goes on after its end; only blanks may follow the backslash. -/
  | lineEnd
  /-- Blanks and line ends after such a line. -/
  | nextLine
  deriving DecidableEq, Repr

/-- A string on one line in double quotes, the first one taken. -/
def readBasic : Pending → Read (List Char)
  | _, [] => none
  | .nothing, c :: rest =>
    if c = '"' then some ([], rest)
    else if c = '\\' then readBasic .escape rest
    else if isPlain c then (readBasic .nothing rest).map (prepend c)
    else none
  | .escape, c :: rest =>
    match codeDigits c with
    | some digits => readBasic (.code (digits - 1) 0) rest
    | none => do
      let d ← unescape c
      (readBasic .nothing rest).map (prepend d)
  | .code left value, c :: rest => do
    let value := 16 * value + (← Json.hexValue c)
    match left with
    | 0 => (readBasic .nothing rest).map (prepend (← charOfCode? value))
    | left + 1 => readBasic (.code left value) rest
  | _, _ => none

/-- Where a text that follows a quote closes a string in triple quotes: the quotes that still belong
to the string, at most two, and the text after it. -/
def closing (quote : Char) : Read (List Char)
  | a :: b :: rest =>
    if a = quote ∧ b = quote then
      match rest with
      | c :: rest =>
        if c = quote then
          match rest with
          | d :: rest =>
            if d = quote then some ([quote, quote], rest) else some ([quote], d :: rest)
          | [] => some ([quote], [])
        else some ([], c :: rest)
      | [] => some ([], [])
    else none
  | _ => none

/-- A carriage return stands before a line feed only. -/
def endsLine (rest : List Char) : Bool := rest.head? = some '\n'

def readBasicLines : Pending → Read (List Char)
  | _, [] => none
  | .escape, c :: rest =>
    if isBlank c then readBasicLines .lineEnd rest
    else if c = '\n' then readBasicLines .nextLine rest
    else if c = '\r' then if endsLine rest then readBasicLines .lineEnd rest else none
    else
      match codeDigits c with
      | some digits => readBasicLines (.code (digits - 1) 0) rest
      | none => do
        let d ← unescape c
        (readBasicLines .nothing rest).map (prepend d)
  | .code left value, c :: rest => do
    let value := 16 * value + (← Json.hexValue c)
    match left with
    | 0 => (readBasicLines .nothing rest).map (prepend (← charOfCode? value))
    | left + 1 => readBasicLines (.code left value) rest
  | .lineEnd, c :: rest =>
    if isBlank c then readBasicLines .lineEnd rest
    else if c = '\n' then readBasicLines .nextLine rest
    else if c = '\r' ∧ endsLine rest then readBasicLines .lineEnd rest
    else none
  | pending, c :: rest =>
    if pending = .nextLine ∧ (isBlank c ∨ c = '\n') then readBasicLines .nextLine rest
    else if c = '"' then
      match closing '"' rest with
      | some closed => some closed
      | none => (readBasicLines .nothing rest).map (prepend c)
    else if c = '\\' then readBasicLines .escape rest
    else if c = '\r' then if endsLine rest then readBasicLines pending rest else none
    else if isPlain c ∨ c = '\n' then (readBasicLines .nothing rest).map (prepend c)
    else none

def readLiteral : Read (List Char)
  | [] => none
  | c :: rest =>
    if c = '\'' then some ([], rest)
    else if isPlain c then (readLiteral rest).map (prepend c)
    else none

def readLiteralLines : Read (List Char)
  | [] => none
  | c :: rest =>
    if c = '\'' then
      match closing '\'' rest with
      | some closed => some closed
      | none => (readLiteralLines rest).map (prepend c)
    else if c = '\r' then if endsLine rest then readLiteralLines rest else none
    else if isPlain c ∨ c = '\n' then (readLiteralLines rest).map (prepend c)
    else none

/-- A line end right after triple quotes does not count. -/
def dropLineEnd : List Char → List Char
  | '\n' :: rest => rest
  | '\r' :: '\n' :: rest => rest
  | s => s

def ofChars (r : List Char × List Char) : String × List Char := (String.ofList r.1, r.2)

def readString : Read String
  | '"' :: '"' :: '"' :: rest => (readBasicLines .nothing (dropLineEnd rest)).map ofChars
  | '"' :: rest => (readBasic .nothing rest).map ofChars
  | '\'' :: '\'' :: '\'' :: rest => (readLiteralLines (dropLineEnd rest)).map ofChars
  | '\'' :: rest => (readLiteral rest).map ofChars
  | _ => none

def readName : Read String
  | '"' :: rest => (readBasic .nothing rest).map ofChars
  | '\'' :: rest => (readLiteral rest).map ofChars
  | s =>
    match s.takeWhile isBare with
    | [] => none
    | word => some (String.ofList word, s.dropWhile isBare)

end BuildCapture.Toml
