import DirGlob.Value

set_option autoImplicit false

/-! # Integers out of values

A limit of the log file may be given as any value: a truth value counts as zero or one, a
floating-point number is cut toward zero, and a text or a sequence of bytes is read as a decimal
with an optional sign, single underscores between digits, and white space around it. A decimal may
have 4300 digits, zeros at its start included. -/

namespace DirGlob

/-- Why no integer can be made of a value. -/
inductive IntegerError where
  /-- A text or a sequence of bytes, in its written spelling, that spells no integer. -/
  | literal (written : String)
  | tooManyDigits (count : Nat)
  | notANumber
  | infinity
  /-- A kind of value that stands for no number. -/
  | kind (name : String)
deriving Repr, DecidableEq

namespace Integer

/-- How much of a text that spells no integer is shown. -/
def shownLength : Nat := 200

end Integer

/-- The text of the error; a long literal is cut off. -/
def IntegerError.message : IntegerError → String
  | .literal written =>
    "invalid literal for int() with base 10: " ++
      String.ofList (written.toList.take Integer.shownLength)
  | .tooManyDigits count =>
    "Exceeds the limit (" ++ toString Integer.maxDigits ++
      " digits) for integer string conversion: value has " ++ toString count ++
      " digits; use sys.set_int_max_str_digits() to increase the limit"
  | .notANumber => "cannot convert float NaN to integer"
  | .infinity => "cannot convert float infinity to integer"
  | .kind name =>
    "int() argument must be a string, a bytes-like object or a real number, not '" ++ name ++ "'"

namespace Integer

/-- Reads an integer with nothing around it, whose written spelling is only needed for the error.
    Too many digits are noticed before anything that follows them, except an underscore. -/
def ofChars (written : String) (s : List Char) : Except IntegerError Int :=
  let (negative, cs) := Text.readSign s
  let (n, count, rest) := Text.readDigits 0 0 cs
  if count = 0 ∨ rest.head? = some '_' then .error (.literal written)
  else if count > maxDigits then .error (.tooManyDigits count)
  else if rest ≠ [] then .error (.literal written)
  else .ok (if negative then -(n : Int) else n)

/-- Whether an integer has room in 64 bits, one of them for the sign. -/
def fits64 (n : Int) : Bool := -(Nat.pow 2 63 : Int) ≤ n && n < (Nat.pow 2 63 : Int)

/-- Whether a byte is one of the blanks of ASCII. -/
def isBlankByte (b : UInt8) : Bool := (9 ≤ b && b ≤ 13) || b == 32

end Integer

/-- The integer that a value stands for. -/
def Value.toInt : Value → Except IntegerError Int
  | .bool b => .ok (if b then 1 else 0)
  | .int n => .ok n
  | .float .nan => .error .notANumber
  | .float x => match x.truncate? with
    | some n => .ok n
    | none => .error .infinity
  | .text s => Integer.ofChars (Text.quoted s) (Text.trimBy Text.isSpace s.toList)
  | .bytes bs =>
    Integer.ofChars (Text.quotedBytes (bs.take Integer.shownLength))
      ((Text.trimBy Integer.isBlankByte bs).map fun b => Char.ofNat b.toNat)
  | v => .error (.kind v.kind)

end DirGlob
