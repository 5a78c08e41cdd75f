import BuildCapture.Toml.Number
set_option autoImplicit false

namespace BuildCapture.Toml

def readLineEnd : List Char → Option (List Char)
  | [] => some []
  | '\n' :: rest => some rest
  | '\r' :: '\n' :: rest => some rest
  | _ => none

def readLineTail (s : List Char) : Option (List Char) :=
  match dropBlank s with
  | '#' :: rest => readLineEnd (rest.dropWhile isPlain)
  | s => readLineEnd s

def dropTrivia : (comment : Bool) → List Char → List Char
  | _, [] => []
  | true, c :: rest =>
    if c = '\n' then dropTrivia false rest
    else if isPlain c ∨ c = '\r' ∧ endsLine rest then dropTrivia true rest
    else c :: rest
  | false, c :: rest =>
    if isBlank c ∨ c = '\n' ∨ c = '\r' ∧ endsLine rest then dropTrivia false rest
    else if c = '#' then dropTrivia true rest
    else c :: rest

/-- At most so many names may be joined by dots, and so many containers opened one inside the
other. -/
def maxDepth : Nat := 79

def readMoreNames : Nat → Read (List String)
  | 0, _ => none
  | steps + 1, s =>
    match dropBlank s with
    | '.' :: rest => do
      let (name, rest) ← readName (dropBlank rest)
      let (names, rest) ← readMoreNames steps rest
      return (name :: names, rest)
    | s => some ([], s)

def readKey : Read KeyPath := fun s => do
  let (first, s) ← readName (dropBlank s)
  let (more, s) ← readMoreNames (s.length + 1) s
  if maxDepth < more.length + 1 then none
  else return (⟨(first :: more).dropLast, (first :: more).getLast (by simp)⟩, s)

mutual

def readValue : (steps room : Nat) → Read Node
  | 0, _, _ => none
  | steps + 1, room, s =>
    match s with
    | '"' :: _ | '\'' :: _ => (readString s).map fun (s, rest) => (.string s, rest)
    | '[' :: rest =>
      if room = 0 then none
      else (readItems steps (room - 1) (dropTrivia false rest)).map fun (items, rest) =>
        (.array items, rest)
    | '\x7b' :: rest =>
      if room = 0 then none
      else
        match dropBlank rest with
        | '\x7d' :: rest => some (.table .inline [], rest)
        | rest => (readEntries steps (room - 1) [] rest).map fun (es, rest) =>
          (.table .inline es, rest)
    | 't' :: 'r' :: 'u' :: 'e' :: rest => some (.bool true, rest)
    | 'f' :: 'a' :: 'l' :: 's' :: 'e' :: rest => some (.bool false, rest)
    | s =>
      match readDateTime s with
      | some rest => some (.dateTime, rest)
      | none => readNumber s

def readItems : (steps room : Nat) → Read (List Node)
  | 0, _, _ => none
  | _ + 1, _, ']' :: rest => some ([], rest)
  | steps + 1, room, s => do
    let (item, rest) ← readValue steps room s
    match dropTrivia false rest with
    | ',' :: rest =>
      let (items, rest) ← readItems steps room (dropTrivia false rest)
      return (item :: items, rest)
    | ']' :: rest => some ([item], rest)
    | _ => none

def readEntries : (steps room : Nat) → Entries → Read Entries
  | 0, _, _, _ => none
  | steps + 1, room, es, s => do
    let (path, rest) ← readKey s
    let (value, rest) ← readValue steps room (dropBlank (← readMark '=' rest))
    let es ← Entries.addEntry path value es
    match dropBlank rest with
    | ',' :: rest => readEntries steps room es rest
    | '\x7d' :: rest => some (es, rest)
    | _ => none

end

def readStatement (s : List Char) : Option (Statement × List Char) :=
  match s with
  | '[' :: '[' :: rest => do
    let (path, rest) ← readKey rest
    return (.tablesHeader path, ← readMark ']' (← readMark ']' rest))
  | '[' :: rest => do
    let (path, rest) ← readKey rest
    return (.header path, ← readMark ']' rest)
  | s => do
    let (path, rest) ← readKey s
    let rest := dropBlank (← readMark '=' rest)
    let (value, rest) ← readValue (2 * rest.length + 2) maxDepth rest
    return (.entry path value, rest)

def isEmptyLine : List Char → Bool
  | c :: _ => c = '#' || c = '\n' || c = '\r'
  | [] => true

/-- The statements from here on. Every line takes a character at least. -/
def readLines : Nat → List Char → Option (List Statement)
  | 0, _ => none
  | steps + 1, s =>
    match dropBlank s with
    | [] => some []
    | s =>
      if isEmptyLine s then do readLines steps (← readLineTail s)
      else do
        let (statement, rest) ← readStatement s
        return statement :: (← readLines steps (← readLineTail rest))

def dropByteOrderMark : List Char → List Char
  | '\ufeff' :: rest => rest
  | s => s

def read (s : String) : Option Entries := do
  let s := dropByteOrderMark s.toList
  Entries.addAll [] (← readLines (s.length + 1) s) []

end BuildCapture.Toml
