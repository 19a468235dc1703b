import DirGlob.Raised.Basic

set_option autoImplicit false

/-! # Errors at a place in a regular expression

The error of a regular expression has a text and, if both are given, the expression and a position
in it. An expression is a text or a sequence of bytes, each of which counts as a character. -/

namespace DirGlob.Raised

/-- The integer that a position is written as. -/
def positionOf (v : Value) : Except Unfit Int :=
  match v with
  | .bool _ | .int _ | .float _ => v.toInt.mapError .noInteger
  | v => .error (.position v.kind)

/-- The characters of an expression. -/
def sourceOf : Value → Except Failure (List Char)
  | .text s => .ok s.toList
  | .bytes bs => .ok (bs.map fun b => Char.ofNat b.toNat)
  | v@(.list _) | v@(.tuple _) => .error (.unfit (.countedPart v.kind))
  | v => .error (.noMember v.kind "count")

/-- The text of an error with its place. -/
def placedText (text source position : Value) : Except Failure String := do
  let n ← (positionOf position).mapError .unfit
  let cs ← sourceOf source
  match position with
  | .float _ => .error (.unfit .cut)
  | _ => return text.shown ++ Regex.placeText cs n

/-- An error of a regular expression. -/
def expression (arguments : List Value) : Except Failure Raised := do
  let text ← match arguments with
    | [] => .error (.unfit (.missing "error" "msg"))
    | [text] | [text, _] | [text, .null, _] | [text, _, .null] => .ok text.shown
    | [text, source, position] => placedText text source position
    | vs => .error (.unfit (.surplus "error" 2 4 (vs.length + 1)))
  return { name := "re.error", text }

end DirGlob.Raised
