set_option autoImplicit false

/-! # Regular expressions over names

The regular expressions that stand for patterns. Besides single characters, sequences,
alternatives and groups they have character sets, runs of characters of a set, the two anchors,
and one look-ahead: a guard that the next character is not a dot.

What an expression means is the relation `Regex.Reads`: from the part `s` of a name that is still
to be read it can go on to the part `t`. -/

namespace DirGlob

/-! ## Character sets -/

/-- A member of a character set: a character or a closed range of characters. -/
inductive CharSet.Item where
  | single (c : Char)
  | range (lo hi : Char)
deriving Repr, DecidableEq, Inhabited

/-- Whether the item holds the character. -/
def CharSet.Item.holds : CharSet.Item → Char → Bool
  | .single a, c => a = c
  | .range lo hi, c => lo ≤ c && c ≤ hi

/-- A set of characters: those that an item holds, or all others. -/
structure CharSet where
  items : List CharSet.Item
  negated : Bool
deriving Repr, DecidableEq, Inhabited

/-- Whether the character belongs to the set. -/
def CharSet.holds (s : CharSet) (c : Char) : Bool :=
  s.items.any (·.holds c) != s.negated

/-! ## Expressions -/

/-- A regular expression. -/
inductive Regex where
  /-- Reads nothing. -/
  | empty
  | char (c : Char)
  /-- One character of the set. -/
  | set (s : CharSet)
  /-- Any number of characters of the set. -/
  | run (s : CharSet)
  /-- The start of the name. -/
  | start
  /-- The end of the name. -/
  | finish
  /-- The name does not go on with a dot. -/
  | notDot
  | seq (a b : Regex)
  | alt (a b : Regex)
  | group (a : Regex)
deriving Repr, DecidableEq, Inhabited

namespace Regex

/-- The number of groups. -/
def groups : Regex → Nat
  | seq a b | alt a b => a.groups + b.groups
  | group a => a.groups + 1
  | _ => 0

/-- `r.Reads name s t`: with `s` still to be read of `name`, the expression can read on to `t`. -/
def Reads (name : List Char) : Regex → List Char → List Char → Prop
  | empty, s, t => s = t
  | char c, s, t => s = c :: t
  | set p, s, t => ∃ c, p.holds c = true ∧ s = c :: t
  | run p, s, t => ∃ w, (∀ c ∈ w, p.holds c = true) ∧ s = w ++ t
  | start, s, t => s = name ∧ s = t
  | finish, s, t => s = [] ∧ s = t
  | notDot, s, t => s.head? ≠ some '.' ∧ s = t
  | seq a b, s, t => ∃ u, Reads name a s u ∧ Reads name b u t
  | alt a b, s, t => Reads name a s t ∨ Reads name b s t
  | group a, s, t => Reads name a s t

end Regex

end DirGlob
