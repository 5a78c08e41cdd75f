import BuildCapture.Command.Run
import Std.Time.DateTime.Timestamp
set_option autoImplicit false

open BuildCapture BuildCapture.Command

def readFile (path : String) : IO (Except FileError String) := do
  let bytes ← (some <$> IO.FS.readBinFile path) <|> pure none
  return fileText bytes

def readFiles (words : List String) : IO Files := do
  let paths :=
    match Arguments.read words with
    | .ok a =>
      a.config.toList ++
        match a.action with
        | .parse => []
        | .snapshot o => [o.build]
    | .error _ => []
  let texts ← paths.mapM fun path => return (path, ← readFile path)
  return fun path => (texts.lookup path).getD (.error .missing)

def clock : IO Instant := do
  let now ← Std.Time.Timestamp.now
  let t := Instant.of? now.val.second.val now.val.nano.val.toNat
  return t.getD ⟨0, 0, by decide, by decide, by decide⟩

def main (words : List String) : IO UInt32 := do
  let outcome := run (← readFiles words) (← clock) words
  IO.print outcome.stdout
  match outcome with
  | .printed _ | .refused (.help _) => pure ()
  | .failed failure => IO.eprintln s!"Error: {failure.message?.getD failure.name}"
  | .unprintable =>
    IO.eprintln "a Display implementation returned an error unexpectedly: Error"
  | .refused .usage => IO.eprintln "For more information, try '--help'."
  return outcome.code
