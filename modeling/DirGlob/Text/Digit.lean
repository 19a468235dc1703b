set_option autoImplicit false

/-! # Decimal digits of every script

A number in a text may be spelled with the decimal digits of any script. Unicode assigns the ten
digits of a script consecutively, so a script is given by the code point of its zero. Between two
digits there may be an underscore, and before the first one a sign. -/

namespace DirGlob.Text

/-- The code points of the zeros of all scripts (Unicode 14). -/
def zeros : List Nat :=
  [
    0x30, 0x660, 0x6f0, 0x7c0, 0x966, 0x9e6, 0xa66, 0xae6, 0xb66, 0xbe6, 0xc66, 0xce6, 0xd66, 0xde6,
    0xe50, 0xed0, 0xf20, 0x1040, 0x1090, 0x17e0, 0x1810, 0x1946, 0x19d0, 0x1a80, 0x1a90, 0x1b50,
    0x1bb0, 0x1c40, 0x1c50, 0xa620, 0xa8d0, 0xa900, 0xa9d0, 0xa9f0, 0xaa50, 0xabf0, 0xff10, 0x104a0,
    0x10d30, 0x11066, 0x110f0, 0x11136, 0x111d0, 0x112f0, 0x11450, 0x114d0, 0x11650, 0x116c0,
    0x11730, 0x118e0, 0x11950, 0x11c50, 0x11d50, 0x11da0, 0x16a60, 0x16ac0, 0x16b50, 0x1d7ce,
    0x1d7d8, 0x1d7e2, 0x1d7ec, 0x1d7f6, 0x1e140, 0x1e2f0, 0x1e950, 0x1fbf0
  ]

/-- The value of a decimal digit, in whichever script it is written. -/
def digitValue? (c : Char) : Option Nat :=
  (zeros.find? fun z => z ≤ c.toNat && c.toNat < z + 10).map (c.toNat - ·)

/-- Whether the character is a decimal digit of some script. -/
def isDecimal (c : Char) : Bool := (digitValue? c).isSome

/-- Reads a sign; answers whether it is a minus, and the rest. -/
def readSign : List Char → Bool × List Char
  | '-' :: cs => (true, cs)
  | '+' :: cs => (false, cs)
  | cs => (false, cs)

/-- Reads digits with single underscores between them; answers the value, the number of digits
    and the rest. -/
def readDigits (value count : Nat) : List Char → Nat × Nat × List Char
  | [] => (value, count, [])
  | '_' :: c :: cs =>
    match digitValue? c with
    | some d => if count = 0 then (value, count, '_' :: c :: cs)
                else readDigits (10 * value + d) (count + 1) cs
    | none => (value, count, '_' :: c :: cs)
  | c :: cs =>
    match digitValue? c with
    | some d => readDigits (10 * value + d) (count + 1) cs
    | none => (value, count, c :: cs)

end DirGlob.Text
