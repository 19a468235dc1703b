import DirGlob.Value

set_option autoImplicit false

/-! # Values as keys

A value can be a key unless its members can be exchanged, or those of a member of it. Two numbers
are the same key if they are equal, whatever their kinds are; what is no number is never equal to
itself, and two objects are never the same key. -/

namespace DirGlob

/-- Whether two numbers are equal: zeros of both signs are, and what is no number never is. -/
def Binary64.isEqual (x y : Binary64) : Bool := x ≠ .nan && (x = y || x.isZero && y.isZero)

namespace Value

mutual

/-- The kind of what makes a value useless as a key: a list or a dictionary. -/
def changeable? : Value → Option String
  | .list _ => some "list"
  | .dict _ => some "dict"
  | .tuple vs => changeableAmong? vs
  | _ => none

/-- The kind of the first member that makes a tuple useless as a key. -/
def changeableAmong? : List Value → Option String
  | [] => none
  | v :: vs => match v.changeable? with
    | some kind => some kind
    | none => changeableAmong? vs

end

mutual

/-- Whether two values are the same key. -/
def isSameKey : Value → Value → Bool
  | .null, .null => true
  | .text s, .text t => s = t
  | .bytes bs, .bytes cs => bs = cs
  | .tuple vs, .tuple ws => areSameKeys vs ws
  | .float x, .float y => x.isEqual y
  | .float x, v => v.whole?.any fun n => x.toInt? = some n
  | v, .float x => v.whole?.any fun n => x.toInt? = some n
  | v, w => v.whole?.any fun n => w.whole? = some n

/-- Whether the members of two tuples are the same keys, in their order. -/
def areSameKeys : List Value → List Value → Bool
  | [], [] => true
  | v :: vs, w :: ws => v.isSameKey w && areSameKeys vs ws
  | _, _ => false

end

end Value

end DirGlob
