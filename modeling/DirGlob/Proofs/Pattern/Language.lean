set_option autoImplicit false

/-! # The language of a pattern

What a pattern stands for, said without a regular expression. Its braces are expanded first: every
choice of alternatives gives a *word*, in which only single characters, separators and the two
wildcards are left. A name belongs to the pattern if one of the words spells it.

`expandFrom` reads the pattern from left to right. For every group that is open it keeps the words
of the alternatives that are complete and of the one that is being read, innermost group first; the
pattern as a whole is the outermost of them. It also counts the opening braces less the closing
ones, since a comma divides alternatives only where that number is positive. -/

namespace DirGlob.Pattern

/-! ## Words -/

/-- A part of a word. -/
inductive Atom where
  /-- A character that stands for itself. -/
  | literal (c : Char)
  /-- A separator, and whether the name must not go on with a dot. -/
  | separator (guarded : Bool)
  /-- Any number of characters other than separators. -/
  | run
  /-- One character other than a separator. -/
  | one
deriving Repr, DecidableEq

/-- With `s` still to be read of a name, the atom can read on to `t`. -/
def Atom.Reads : Atom → List Char → List Char → Prop
  | literal c, s, t => s = c :: t
  | separator guarded, s, t => s = '/' :: t ∧ (guarded = true → t.head? ≠ some '.')
  | run, s, t => ∃ w, '/' ∉ w ∧ s = w ++ t
  | one, s, t => ∃ c, c ≠ '/' ∧ s = c :: t

/-- A pattern without braces. -/
abbrev Word := List Atom

/-- With `s` still to be read of a name, the word can read on to `t`. -/
def Word.Reads : Word → List Char → List Char → Prop
  | [], s, t => s = t
  | a :: w, s, t => ∃ u, a.Reads s u ∧ Word.Reads w u t

/-! ## Groups of alternatives -/

/-- A group that is being read: the words of the alternatives that are complete, and those of the
    one that is being read, as far as it has been read. -/
structure Choice where
  complete : List Word
  current : List Word
deriving Repr, DecidableEq

namespace Choice

/-- A group of which nothing has been read. -/
def opened : Choice := ⟨[], [[]]⟩

/-- The words of all alternatives. -/
def words (c : Choice) : List Word := c.complete ++ c.current

/-- Goes on with any one of the words. -/
def append (c : Choice) (ws : List Word) : Choice :=
  { c with current := c.current.flatMap fun w => ws.map (w ++ ·) }

/-- Goes on with an atom. -/
def push (c : Choice) (a : Atom) : Choice := c.append [[a]]

/-- Begins another alternative. -/
def next (c : Choice) : Choice := ⟨c.words, [[]]⟩

end Choice

/-! ## Expansion -/

/-- The words of a whole pattern that ends within these groups. -/
def closeAll (choice : Choice) : List Choice → List Word
  | [] => choice.words
  | c :: outer => closeAll (c.append choice.words) outer

/-- The words of a pattern of which this much has been read: the opening braces less the closing
    ones, the innermost group and the groups around it. -/
def expandFrom (depth : Int) (choice : Choice) (outer : List Choice) : List Char → List Word
  | [] => closeAll choice outer
  | '\\' :: [] => closeAll (choice.push (.literal '\\')) outer
  | '\\' :: c :: cs => expandFrom depth (choice.push (.literal c)) outer cs
  | '/' :: cs => expandFrom depth (choice.push (.separator (cs.head? ≠ some '.'))) outer cs
  | '*' :: cs => expandFrom depth (choice.push .run) outer cs
  | '?' :: cs => expandFrom depth (choice.push .one) outer cs
  | '{' :: cs => expandFrom (depth + 1) .opened (choice :: outer) cs
  | '}' :: cs =>
    match outer with
    | [] => expandFrom (depth - 1) (choice.push (.literal '}')) [] cs
    | c :: outer => expandFrom (depth - 1) (c.append choice.words) outer cs
  | ',' :: cs =>
    if depth > 0 then expandFrom depth choice.next outer cs
    else expandFrom depth (choice.push (.literal ',')) outer cs
  | c :: cs => expandFrom depth (choice.push (.literal c)) outer cs

/-- The words that a pattern expands to. -/
def expand (pattern : List Char) : List Word := expandFrom 0 .opened [] pattern

example : expand "a{b,{c,*}}d".toList =
    [[.literal 'a', .literal 'b', .literal 'd'], [.literal 'a', .literal 'c', .literal 'd'],
      [.literal 'a', .run, .literal 'd']] := by decide

/-- A name belongs to a pattern if a word of the pattern spells it. A name that starts with a dot
    belongs only to patterns that start with one. -/
def Names (pattern name : List Char) : Prop :=
  (pattern.head? ≠ some '.' → name.head? ≠ some '.') ∧ ∃ w ∈ expand pattern, Word.Reads w name []

end DirGlob.Pattern
