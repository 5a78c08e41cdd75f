import BuildCapture.Text.Graphic
set_option autoImplicit false

namespace BuildCapture.Text

def escapedCode (c : Char) : List Char :=
  '\\' :: 'u' :: '\x7b' :: Nat.toDigits 16 c.toNat ++ ['\x7d']

def escaped (c : Char) : List Char :=
  match c with
  | '\x00' => ['\\', '0']
  | '\t' => ['\\', 't']
  | '\n' => ['\\', 'n']
  | '\r' => ['\\', 'r']
  | '"' => ['\\', '"']
  | '\\' => ['\\', '\\']
  | c => if isGraphic c then [c] else escapedCode c

def quoted (s : String) : String := String.ofList ('"' :: s.toList.flatMap escaped ++ ['"'])

end BuildCapture.Text
