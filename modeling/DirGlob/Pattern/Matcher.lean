import DirGlob.Pattern.Expression
import DirGlob.Regex.Match
import DirGlob.Regex.Reader

set_option autoImplicit false

/-! # Compiled patterns

A pattern is compiled by writing its regular expression and reading that back. The writing never
fails; the reading fails on some patterns with an opening bracket, which is no part of the pattern
language and is passed on as it is. -/

namespace DirGlob.Pattern

/-- A compiled pattern: its text, the text of its regular expression and the expression. -/
structure Matcher where
  glob : String
  regex : String
  program : Regex
deriving Repr, DecidableEq

namespace Matcher

/-- Compiles a pattern. -/
def ofPattern (pattern : String) : Except Regex.Malformed Matcher := do
  let regex := regexText pattern
  return ⟨pattern, regex, ← Regex.ofText regex⟩

/-- The number of groups of the regular expression. -/
def groups (m : Matcher) : Nat := m.program.groups

/-- Whether the name matches the pattern. -/
def matches? (m : Matcher) (name : String) : Bool := m.program.matches? name

end Matcher

end DirGlob.Pattern
