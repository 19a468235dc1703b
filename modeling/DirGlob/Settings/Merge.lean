import DirGlob.Failure
import DirGlob.Settings.Basic
import DirGlob.Value.Key
import DirGlob.Value.Members

set_option autoImplicit false

/-! # Merging settings

Overrides are merged into settings key by key: an override that is given takes the place of the
entry under its key, and keys that mean nothing are not looked at.

Both may be values of any kind. Settings may be anything that can be read as entries: a
dictionary, or a sequence of pairs. Of the overrides it is only asked whether they hold the keys,
and if they do, what stands there. So a sequence or a text that holds none of the keys is as good
as no overrides, and one that holds a key fails, because nothing stands under a key in it. -/

namespace DirGlob

namespace Value

/-- Puts a value under a key of any kind: in the place of the value that is there, or at the end. -/
def putUnder : List (Value × Value) → Value → Value → List (Value × Value)
  | [], key, v => [(key, v)]
  | (k, w) :: entries, key, v =>
    if k.isSameKey key then (k, v) :: entries else (k, w) :: putUnder entries key v

/-- Entries under texts. A key that is no text is known by its shown spelling. -/
def nameKeys (entries : List (Value × Value)) : List (String × Value) :=
  entries.foldl (fun named e => put named e.1.shown e.2) []

/-- Adds pairs to entries; `index` is the number of the pair that comes next. -/
def putPairs (index : Nat) (entries : List (Value × Value)) :
    List Value → Except Failure (List (Value × Value))
  | [] => .ok entries
  | v :: vs => match v.members? with
    | none => .error (.noPair index)
    | some [key, w] => match key.changeable? with
      | some kind => .error (.changeableKey kind)
      | none => putPairs (index + 1) (putUnder entries key w) vs
    | some members => .error (.pairSize index members.length)

/-- The entries of a dictionary, or of a sequence of pairs. -/
def toEntries : Value → Except Failure (List (String × Value))
  | .dict entries => .ok entries
  | v => match v.members? with
    | some vs => (putPairs 0 [] vs).map nameKeys
    | none => .error (.notIterable v.kind)

/-- Whether the value is this text. -/
def isText (s : String) : Value → Bool
  | .text t => t = s
  | _ => false

end Value

namespace Settings

/-- Puts those overrides that are given in the place of the entries. -/
def mergeEntries (base overrides : List (String × Value)) : List (String × Value) :=
  keys.foldl (fun entries key =>
    match Value.get? overrides key with
    | none | some .null => entries
    | some v => Value.put entries key v) base

/-- The entries of overrides of any kind. -/
def overridesOf : Value → Except Failure (List (String × Value))
  | .dict entries => .ok entries
  | .list vs =>
    if keys.any fun key => vs.any (·.isText key) then .error .keyInList else .ok []
  | .tuple vs =>
    if keys.any fun key => vs.any (·.isText key) then .error .keyInTuple else .ok []
  | .text s => if keys.any fun key => s.contains key then .error .keyInText else .ok []
  | .bytes _ => .error (.bytesWanted "str")
  | v => .error (.noMembers v.kind)

/-- Merges overrides into settings. -/
def merge (base overrides : Value) : Except Failure Value := do
  return .dict (mergeEntries (← base.toEntries) (← overridesOf overrides))

end Settings

end DirGlob
