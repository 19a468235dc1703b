import DirGlob.Text.Printable

set_option autoImplicit false

/-! # Quoted text

A text or a sequence of bytes is shown in a message between quotes: single quotes, or double
ones when it holds a single quote and no double one. The quote and the backslash are escaped by
a backslash, tab, newline and carriage return by their letters, and every other character that
cannot be shown by the shortest of `\xhh`, `\uhhhh` and `\Uhhhhhhhh` that holds its code point. -/

namespace DirGlob.Text

/-- The last `width` hexadecimal digits of a number, in small letters. -/
def hexDigits : Nat → Nat → List Char
  | 0, _ => []
  | width + 1, n => hexDigits width (n / 16) ++ [Nat.digitChar (n % 16)]

/-- The quote that a sequence is written between, from the quotes it holds. -/
def quoteFor (hasSingle hasDouble : Bool) : Char :=
  if hasSingle && !hasDouble then '\"' else '\''

/-- An escape by code point, in the shortest of the three widths that holds it. -/
def escapeCode (n : Nat) : List Char :=
  if n < 0x100 then '\\' :: 'x' :: hexDigits 2 n
  else if n < 0x10000 then '\\' :: 'u' :: hexDigits 4 n
  else '\\' :: 'U' :: hexDigits 8 n

/-- One character of a quoted text. -/
def quoteChar (quote c : Char) : List Char :=
  if c = quote ∨ c = '\\' then ['\\', c]
  else if c = '\t' then ['\\', 't']
  else if c = '\n' then ['\\', 'n']
  else if c = '\r' then ['\\', 'r']
  else if isPrintable c then [c]
  else escapeCode c.toNat

/-- The characters of a text between quotes. -/
def quoteChars (s : List Char) : List Char :=
  let quote := quoteFor (s.contains '\'') (s.contains '\"')
  quote :: s.flatMap (quoteChar quote) ++ [quote]

/-- The text between quotes. -/
def quoted (s : String) : String := String.ofList (quoteChars s.toList)

/-- One byte of a quoted sequence of bytes: only the bytes of printable ASCII are shown. -/
def quoteByte (quote : Char) (b : UInt8) : List Char :=
  if b.toNat < 0x7f then quoteChar quote (Char.ofNat b.toNat) else escapeCode b.toNat

/-- The bytes between quotes, marked by a `b`. -/
def quotedBytes (bs : List UInt8) : String :=
  let quote := quoteFor (bs.contains 0x27) (bs.contains 0x22)
  String.ofList ('b' :: quote :: bs.flatMap (quoteByte quote) ++ [quote])

end DirGlob.Text
