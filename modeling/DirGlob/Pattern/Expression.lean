set_option autoImplicit false

/-! # The regular expression of a pattern

A pattern is made of elements: a character with its backslash, a separator (for which it matters
whether a dot follows), or any other character. Each element gives one fragment of a regular
expression. What a brace or a comma means depends on the braces before it, and `Braces`
keeps what has to be known of them.

* `depth` counts the opening braces less all closing ones, and falls below zero when there are more
  of the latter; a comma divides alternatives where it is positive.
* `openGroups` counts the groups that are still open. A closing brace closes one if there is one,
  and otherwise stands for itself.

The groups that are open at the end of the pattern are closed there. -/

namespace DirGlob.Pattern

/-! ## Elements -/

/-- An element of a pattern. -/
inductive Element where
  /-- A character that a backslash makes stand for itself. -/
  | escaped (c : Char)
  /-- A separator, and whether a dot follows it. -/
  | separator (dotted : Bool)
  | plain (c : Char)
deriving Repr, DecidableEq

/-- The elements of a pattern; a backslash at the end stands for itself. -/
def elements : List Char → List Element
  | [] => []
  | ['\\'] => [.escaped '\\']
  | '\\' :: c :: cs => .escaped c :: elements cs
  | c :: cs => (if c = '/' then .separator (cs.head? = some '.') else .plain c) :: elements cs

/-! ## Fragments -/

/-- A fragment of the regular expression of a pattern. -/
inductive Fragment where
  | char (c : Char)
  /-- A character with a backslash before it. -/
  | escaped (c : Char)
  /-- A separator, and whether the guard against a dot follows it. -/
  | separator (guarded : Bool)
  /-- Any number of characters other than separators. -/
  | run
  /-- One character other than a separator. -/
  | one
  | openGroup
  | closeGroup
  /-- A closing brace that closes no group. -/
  | strayClose
  | bar
deriving Repr, DecidableEq

/-- The guard that the name does not go on with a dot. -/
def guardText : List Char := ['(', '?', '!', '\\', '.', ')']

/-- The fragment as it is written. -/
def Fragment.text : Fragment → List Char
  | .char c => [c]
  | .escaped c => ['\\', c]
  | .separator guarded => '/' :: if guarded then guardText else []
  | .run => ['[', '^', '/', ']', '*']
  | .one => ['[', '^', '/', ']']
  | .openGroup => ['(']
  | .closeGroup => [')']
  | .strayClose => ['\\', '}']
  | .bar => ['|']

/-- The characters that keep their backslash when they are escaped in a pattern. -/
def keepsBackslash (c : Char) : Bool :=
  "()[]{}?*+-|^$\\.&~# \t\n\r\x0b\x0c".toList.contains c

/-- The characters that mean something in a regular expression and nothing in a pattern. -/
def isSpecial (c : Char) : Bool := ".()|+^$@%".toList.contains c

/-! ## Braces -/

/-- What has to be known of the braces before an element. -/
structure Braces where
  depth : Int
  openGroups : Nat
deriving Repr, DecidableEq

namespace Braces

/-- No braces. -/
def none : Braces := ⟨0, 0⟩

/-- The fragment that an element gives after these braces. -/
def fragment (b : Braces) : Element → Fragment
  | .escaped c => if keepsBackslash c then .escaped c else .char c
  | .separator dotted => .separator (!dotted)
  | .plain '*' => .run
  | .plain '?' => .one
  | .plain '{' => .openGroup
  | .plain '}' => if b.openGroups > 0 then .closeGroup else .strayClose
  | .plain c =>
    if c = ',' ∧ b.depth > 0 then .bar
    else if isSpecial c then .escaped c
    else .char c

/-- The braces after an element. -/
def after (b : Braces) : Element → Braces
  | .plain '{' => ⟨b.depth + 1, b.openGroups + 1⟩
  | .plain '}' => ⟨b.depth - 1, b.openGroups - 1⟩
  | _ => b

end Braces

/-! ## The expression -/

/-- The fragments that elements give after these braces, the closing ones at the end included. -/
def fragmentsFrom (b : Braces) : List Element → List Fragment
  | [] => List.replicate b.openGroups .closeGroup
  | e :: es => b.fragment e :: fragmentsFrom (b.after e) es

/-- The fragments that a pattern gives. -/
def fragments (pattern : List Char) : List Fragment := fragmentsFrom .none (elements pattern)

/-- The characters of the regular expression: between the two anchors, and guarded against a dot
    at the start of the name unless the pattern itself starts with one. -/
def regexChars (pattern : List Char) : List Char :=
  '^' :: (if pattern.head? = some '.' then [] else guardText) ++
    (fragments pattern).flatMap Fragment.text ++ ['\\', 'Z']

/-- The text of the regular expression of a pattern. -/
def regexText (pattern : String) : String := String.ofList (regexChars pattern.toList)

end DirGlob.Pattern
