import DirGlob.Failure
import DirGlob.Path.Join

set_option autoImplicit false

/-! # Values as paths

Wherever a path is expected any value may be given: a text is a path, an object that gives a text
stands for it, and everything else is refused. Several operands are read from left to right, and the
first that is refused decides. -/

namespace DirGlob.Path

/-- The path that a value stands for. -/
def ofValue : Value → Except Failure String
  | .text s => .ok s
  | .pathLike (.text s) _ => .ok s
  | .bytes bs => .error (.bytePath (Value.bytes bs).written)
  | .pathLike (.bytes _) guise => .error (.bytePath guise.written)
  | .pathLike v _ => .error (.givesNoPath v.kind)
  | v => .error (.notAPath v.kind)

/-- Joins values as paths. -/
def joinValues (base : Value) (parts : List Value) : Except Failure String := do
  return joinAll (← ofValue base) (← parts.mapM ofValue)

end DirGlob.Path
