import DirGlob.Raised.Basic

set_option autoImplicit false

/-! # Errors of coding

What was to be decoded, encoded or mapped could not be, from a start up to a stop. The text of
the error shows what stands there if it is one byte or one character; of more, or of a part that is
not there, only the positions are shown. -/

namespace DirGlob.Raised

/-! ## Reading the arguments -/

/-- The kind of an argument, as the complaint gives it that it is no text. -/
def nonTextKind : Value → String
  | .null => Value.null.written
  | v => v.kind

/-- The argument with this number, as a text. -/
def textArgument (number : Nat) : Value → Except Unfit String
  | .text s => .ok s
  | v => .error (.notText none number (nonTextKind v))

/-- An argument as an integer with room in 64 bits. -/
def integerArgument (v : Value) : Except Unfit Int :=
  match v.whole? with
  | some n => if Integer.fits64 n then .ok n else .error .tooLarge
  | none => .error (.notInteger v.kind)

/-! ## Showing a part -/

/-- A part of a sequence, from a start up to a stop, and why it cannot be coded. -/
structure Part where
  start : Int
  stop : Int
  reason : String
deriving Repr, DecidableEq

/-- Reads a part; the reason is the argument with this number. -/
def Part.ofArguments (number : Nat) (start stop reason : Value) : Except Unfit Part := do
  let start ← integerArgument start
  let stop ← integerArgument stop
  return { start, stop, reason := ← textArgument number reason }

/-- The member that makes up the part, if it is one. Negative positions are those of what stands
    `before` the members. -/
def Part.single? {α : Type} (p : Part) (before members : List α) : Option α :=
  let index := p.start + before.length
  if 0 ≤ index ∧ p.stop = p.start + 1 then (before ++ members)[index.toNat]? else none

/-- The position of the last member; like all positions it has room in 64 bits, and the one before
    the least is the greatest. -/
def Part.last (p : Part) : Int := (p.stop - 1).bmod (Nat.pow 2 64)

/-- The part and the reason, with a single member as `one` shows it. -/
def Part.text {α : Type} (p : Part) (before members : List α) (one : α → String)
    (several : String) : String :=
  (match p.single? before members with
    | some a => one a ++ " in position " ++ toString p.start
    | none =>
      several ++ " in position " ++ toString p.start ++ "-" ++ toString p.last) ++
    ": " ++ p.reason

/-- What a sequence of bytes is stored behind: its length in eight bytes, the lowest first, and the
    place of a checksum, which holds ones until it is made. That of nothing is zero. -/
def header (bs : List UInt8) : List UInt8 :=
  (List.range 8).map (fun i => (bs.length / Nat.pow 256 i).toUInt8) ++
    List.replicate 8 (if bs.isEmpty then 0 else 255)

/-- A part of bytes. -/
def Part.textOfBytes (p : Part) (bs : List UInt8) : String :=
  p.text (header bs) bs (fun b => "byte 0x" ++ String.ofList (Text.hexDigits 2 b.toNat)) "bytes"

/-- A part of a text; a single character is shown by its code point. -/
def Part.textOfChars (p : Part) (s : String) : String :=
  p.text [] s.toList
    (fun c => "character '" ++ String.ofList (Text.escapeCode c.toNat) ++ "'") "characters"

/-! ## The errors -/

/-- Bytes that cannot be decoded. -/
def decoding : List Value → Except Failure Raised
  | [codec, members, start, stop, reason] => do
    let codec ← (textArgument 1 codec).mapError .unfit
    let part ← (Part.ofArguments 5 start stop reason).mapError .unfit
    match members with
    | .bytes bs =>
      let text := "'" ++ codec ++ "' codec can't decode " ++ part.textOfBytes bs
      return { name := "UnicodeDecodeError", text }
    | v => .error (.bytesWanted v.kind)
  | vs => .error (.unfit (.count none (.exactly 5) vs.length))

/-- A text that cannot be encoded. -/
def encoding : List Value → Except Unfit Raised
  | [codec, members, start, stop, reason] => do
    let codec ← textArgument 1 codec
    let members ← textArgument 2 members
    let part ← Part.ofArguments 5 start stop reason
    let text := "'" ++ codec ++ "' codec can't encode " ++ part.textOfChars members
    return { name := "UnicodeEncodeError", text }
  | vs => .error (.count none (.exactly 5) vs.length)

/-- A text that cannot be mapped. -/
def mapping : List Value → Except Unfit Raised
  | [members, start, stop, reason] => do
    let members ← textArgument 1 members
    let part ← Part.ofArguments 4 start stop reason
    let text := "can't translate " ++ part.textOfChars members
    return { name := "UnicodeTranslateError", text }
  | vs => .error (.count none (.exactly 4) vs.length)

end DirGlob.Raised
