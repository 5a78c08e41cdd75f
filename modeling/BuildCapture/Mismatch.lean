import BuildCapture.Decimal.Shortest
import BuildCapture.Text.Quoted
import BuildCapture.Time.Rfc3339.Reader
set_option autoImplicit false

namespace BuildCapture

inductive Found where
  | null
  | bool (value : Bool)
  | int (value : Int)
  | float (value : Decimal.Binary64)
  | string (value : String)
  | sequence
  | map
  deriving DecidableEq, Repr

inductive Wanted where
  | string
  | boolean
  | int32
  | int64
  | word32
  | sequence
  | map
  | unit
  | keyword
  | dateTime
  | record (name : String)
  | recordOf (name : String) (count : Nat)
  | elements (count : Nat)
  | tagged (name : String)
  deriving DecidableEq, Repr

inductive Mismatch where
  | missingField (name : String)
  | duplicateField (name : String)
  | unknownKeyword (found : String) (known : List String)
  | wrongType (found : Found) (wanted : Wanted)
  | outOfRange (value : Int) (wanted : Wanted)
  | wrongLength (length : Nat) (wanted : Wanted)
  | dateTime (error : Rfc3339.Error)
  deriving DecidableEq, Repr

def Found.describe (style : Decimal.FloatStyle) : Found → String
  | .null => "null"
  | .bool b => s!"boolean `{b}`"
  | .int n => s!"integer `{n}`"
  | .float x => s!"floating point `{style.write x}`"
  | .string s => "string " ++ Text.quoted s
  | .sequence => "sequence"
  | .map => "map"

def countOf (count : Nat) (noun : String) : String :=
  s!"{count} {noun}" ++ if count = 1 then "" else "s"

def Wanted.describe : Wanted → String
  | .string => "a string"
  | .boolean => "a boolean"
  | .int32 => "i32"
  | .int64 => "i64"
  | .word32 => "u32"
  | .sequence => "a sequence"
  | .map => "a map"
  | .unit => "unit"
  | .keyword => "variant identifier"
  | .dateTime => "an RFC 3339 formatted date and time string"
  | .record name => "struct " ++ name
  | .recordOf name count => "struct " ++ name ++ " with " ++ countOf count "element"
  | .elements count => countOf count "element" ++ " in sequence"
  | .tagged name => "internally tagged enum " ++ name

def Mismatch.message (style : Decimal.FloatStyle) : Mismatch → String
  | .missingField name => s!"missing field `{name}`"
  | .duplicateField name => s!"duplicate field `{name}`"
  | .unknownKeyword found known =>
    s!"unknown variant `{found}`, expected one of " ++
      ", ".intercalate (known.map fun name => s!"`{name}`")
  | .wrongType found wanted => s!"invalid type: {found.describe style}, expected {wanted.describe}"
  | .outOfRange value wanted => s!"invalid value: integer `{value}`, expected {wanted.describe}"
  | .wrongLength length wanted => s!"invalid length {length}, expected {wanted.describe}"
  | .dateTime error => error.message

end BuildCapture
