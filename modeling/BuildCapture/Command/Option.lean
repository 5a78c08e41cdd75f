set_option autoImplicit false

/-!
Command-line options. An option is written `--name` or `-n`. A value follows it as the next word, or
after `=` within the same word, or directly after the single letter. A word of its own that starts
with `-` is no value, unless it is `-` alone.
-/

namespace BuildCapture.Command

structure OptionSpec where
  name : String
  letter : Option Char := none
  takesValue : Bool := false
  repeatable : Bool := false
  /-- Which texts may be the value. -/
  accepts : String → Bool := fun _ => true
  about : String

inductive Stop where
  | usage
  | help
  deriving DecidableEq, Repr

/-- An option that was given; the value is empty for one that takes none. -/
structure Given where
  name : String
  value : String
  deriving DecidableEq, Repr

inductive Word where
  | plain
  | separator
  | long (name : String) (value : Option String)
  | short (letter : Char) (tail : List Char)

def splitValue (s : List Char) : String × Option String :=
  let name := String.ofList (s.takeWhile (· ≠ '='))
  match s.dropWhile (· ≠ '=') with
  | _ :: value => (name, some (String.ofList value))
  | [] => (name, none)

def classify (word : String) : Word :=
  match word.toList with
  | ['-', '-'] => .separator
  | '-' :: '-' :: s => let (name, value) := splitValue s; .long name value
  | '-' :: c :: tail => .short c tail
  | _ => .plain

def tailValue : List Char → Option String
  | [] => none
  | '=' :: value => some (String.ofList value)
  | value => some (String.ofList value)

def isPlain (word : String) : Bool :=
  match classify word with
  | .plain => true
  | _ => false

def values (given : List Given) (name : String) : List String :=
  (given.filter (·.name = name)).map Given.value

def value? (given : List Given) (name : String) : Option String := (values given name).head?

def addOption (spec : OptionSpec) (value : String) (given : List Given) :
    Except Stop (List Given) :=
  if (spec.repeatable || (values given spec.name).isEmpty) && spec.accepts value then
    .ok (given ++ [⟨spec.name, value⟩])
  else .error .usage

/-- Adds the options at the start of the words to those given before, and leaves the words from the
first one on that is no option. The words are taken in their order, so help is not shown after an
option that cannot stand. A separator may only stand at the end. -/
def readOptions (specs : List OptionSpec) :
    List Given → List String → Except Stop (List Given × List String)
  | given, [] => .ok (given, [])
  | given, word :: rest =>
    let valued (spec : OptionSpec) (value : Option String) :
        Except Stop (List Given × List String) :=
      match value, rest with
      | some value, rest => do readOptions specs (← addOption spec value given) rest
      | none, next :: rest =>
        if isPlain next then do readOptions specs (← addOption spec next given) rest
        else .error .usage
      | none, [] => .error .usage
    let bare (spec : OptionSpec) : Except Stop (List Given × List String) := do
      readOptions specs (← addOption spec "" given) rest
    match classify word with
    | .plain => .ok (given, word :: rest)
    | .separator => if rest.isEmpty then .ok (given, []) else .error .usage
    | .long name value =>
      match specs.find? (·.name = name) with
      | some spec =>
        if spec.takesValue then valued spec value
        else if value.isSome then .error .usage
        else bare spec
      | none => .error (if name = "help" ∧ value.isNone then .help else .usage)
    | .short letter tail =>
      match specs.find? (·.letter = some letter) with
      | some spec =>
        if spec.takesValue then valued spec (tailValue tail)
        else if tail.isEmpty then bare spec
        else .error .usage
      | none => .error (if letter = 'h' then .help else .usage)

end BuildCapture.Command
