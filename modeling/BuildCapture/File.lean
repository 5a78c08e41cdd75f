set_option autoImplicit false

namespace BuildCapture

inductive FileError where
  | missing
  | notText
  deriving DecidableEq, Repr

def FileError.message : FileError → String
  | .missing => "No such file or directory (os error 2)"
  | .notText => "stream did not contain valid UTF-8"

def fileText : Option ByteArray → Except FileError String
  | none => .error .missing
  | some bytes =>
    match String.fromUTF8? bytes with
    | some s => .ok s
    | none => .error .notText

end BuildCapture
