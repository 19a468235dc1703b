import DirGlob.Value

set_option autoImplicit false

/-! # Members of values

Some kinds of values have members, which can be gone through one after the other. -/

namespace DirGlob.Value

/-- The members of a value, if it has any: the characters of a text, the numbers of bytes, the keys
    of a dictionary. -/
def members? : Value → Option (List Value)
  | .list vs | .tuple vs => some vs
  | .text s => some (s.toList.map fun c => .text c.toString)
  | .bytes bs => some (bs.map fun b => .int b.toNat)
  | .dict entries => some (entries.map fun e => .text e.1)
  | .null | .bool _ | .int _ | .float _ | .pathLike .. => none

end DirGlob.Value
