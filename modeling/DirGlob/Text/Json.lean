import DirGlob.Text.Quoted

set_option autoImplicit false

/-! # Lists of texts as JSON

A list of texts is written as a JSON array with one text to a line. Within a text the quote, the
backslash and the control characters are escaped, and everything else stands as it is. -/

namespace DirGlob.Text.Json

/-- One character of a JSON string. -/
def encodeChar (c : Char) : List Char :=
  if c = '\"' ∨ c = '\\' then ['\\', c]
  else if c = '\n' then ['\\', 'n']
  else if c = '\r' then ['\\', 'r']
  else if c = '\t' then ['\\', 't']
  else if c = '\x08' then ['\\', 'b']
  else if c = '\x0c' then ['\\', 'f']
  else if c.toNat < 0x20 then '\\' :: 'u' :: hexDigits 4 c.toNat
  else [c]

/-- A text as a JSON string. -/
def encode (s : String) : String :=
  String.ofList ('\"' :: s.toList.flatMap encodeChar ++ ['\"'])

/-- A list of texts as a JSON array. -/
def encodeList : List String → String
  | [] => "[]"
  | texts => "[\n  " ++ ",\n  ".intercalate (texts.map encode) ++ "\n]"

end DirGlob.Text.Json
