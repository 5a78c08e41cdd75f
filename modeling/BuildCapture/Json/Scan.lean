import BuildCapture.Json.Number
set_option autoImplicit false

namespace BuildCapture.Json

def isSpace (c : Char) : Bool := c = ' ' || c = '\n' || c = '\t' || c = '\r'

def dropSpace (s : List Char) : List Char := s.dropWhile isSpace

def scanWord (value : Scalar) : List Char → List Char → Scanned Scalar
  | [], s => ⟨.ok value, .ok s⟩
  | _ :: _, [] => .fail .ended
  | letter :: letters, c :: rest =>
    if c = letter then scanWord value letters rest else .fail .malformed

def scanScalar (c : Char) (rest : List Char) : Scanned Scalar :=
  match c with
  | 'n' => scanWord .null ['u', 'l', 'l'] rest
  | 't' => scanWord (.bool true) ['r', 'u', 'e'] rest
  | 'f' => scanWord (.bool false) ['a', 'l', 's', 'e'] rest
  | '"' => (scanString rest).map .string
  | c => if c = '-' ∨ c.isDigit then scanNumber (c :: rest) else .fail .malformed

/-- A tree and the text after it; no text if the tree cannot even be skipped. -/
abbrev ScannedTree := Tree × Option (List Char)

mutual

def scanValue : Nat → List Char → ScannedTree
  | 0, _ => (.leaf (.missing .ended), none)
  | steps + 1, s =>
    match dropSpace s with
    | [] => (.leaf (.missing .ended), none)
    | '[' :: rest =>
      let (items, close, rest) := scanItems steps true rest
      (.array items close, rest)
    | '\x7b' :: rest =>
      let (members, close, rest) := scanMembers steps true rest
      (.object members close, rest)
    | c :: rest =>
      let scanned := scanScalar c rest
      (.leaf ⟨some c, scanned.read, scanned.skip⟩, scanned.rest.toOption)

def scanItems : Nat → Bool → List Char → List Tree × Close × Option (List Char)
  | 0, _, _ => ([], .error .ended, none)
  | steps + 1, first, s =>
    let item (s : List Char) : List Tree × Close × Option (List Char) :=
      match scanValue steps s with
      | (t, none) => ([t], .error .malformed, none)
      | (t, some rest) => (scanItems steps false rest).map (t :: ·) id
    match dropSpace s with
    | [] => ([], .error .ended, none)
    | ']' :: rest => ([], .ok (), some rest)
    | c :: rest =>
      if first then item (c :: rest)
      else if c = ',' then
        match dropSpace rest with
        | ']' :: _ => ([.leaf (.missing .malformed)], .error .malformed, none)
        | rest => item rest
      else ([], .error .malformed, none)

def scanMembers : Nat → Bool → List Char → List (Key × Tree) × Close × Option (List Char)
  | 0, _, _ => ([], .error .ended, none)
  | steps + 1, first, s =>
    let member (s : List Char) : List (Key × Tree) × Close × Option (List Char) :=
      let scanned := scanString s
      let key : Key := ⟨scanned.read, scanned.skip⟩
      let last (t : Tree) : List (Key × Tree) × Close × Option (List Char) :=
        ([(key, t)], .error .malformed, none)
      match scanned.rest with
      | .error fault => last (.leaf (.missing fault))
      | .ok rest =>
        match dropSpace rest with
        | [] => last (.leaf (.missing .ended))
        | ':' :: rest =>
          match scanValue steps rest with
          | (t, none) => last t
          | (t, some rest) => (scanMembers steps false rest).map ((key, t) :: ·) id
        | _ => last (.leaf (.missing .malformed))
    let noKey (fault : Fault) : List (Key × Tree) × Close × Option (List Char) :=
      ([(.missing fault, .leaf (.missing fault))], .error fault, none)
    match dropSpace s with
    | [] => ([], .error .ended, none)
    | '\x7d' :: rest => ([], .ok (), some rest)
    | c :: rest =>
      if first then
        if c = '"' then member rest else ([], .error .malformed, none)
      else if c = ',' then
        match dropSpace rest with
        | '"' :: rest => member rest
        | [] => noKey .ended
        | _ => noKey .malformed
      else ([], .error .malformed, none)

end

def scan (s : String) : ScannedTree :=
  -- No character takes more than two steps.
  scanValue (2 * s.toList.length + 2) s.toList

end BuildCapture.Json
