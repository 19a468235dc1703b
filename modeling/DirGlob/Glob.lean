import DirGlob.World

set_option autoImplicit false

/-! # Entries that match a pattern

A full pattern consists of a directory and, after the last separator, a pattern for the names of
entries. The directory is taken literally, whatever characters it holds, and only its direct
entries are looked at. Matches come in listing order. -/

namespace DirGlob

/-- A full pattern in its two parts. -/
structure GlobTarget where
  directory : String
  leaf : String
deriving Repr, DecidableEq

/-- Cuts a full pattern at its last separator. -/
def GlobTarget.ofPattern (pattern : String) : GlobTarget :=
  match Path.Components.ofPath pattern with
  | ⟨none, [leaf]⟩ => ⟨".", leaf⟩
  | ⟨root, parts⟩ =>
    ⟨Path.Components.toPath ⟨root, parts.dropLast⟩, parts.getLast?.getD ""⟩

namespace Action

/-- The logger of the search. -/
def globLogger : String := "fsglob.core.resolver"

/-- The paths of the entries of a directory whose names match a pattern. -/
def globIn (root pattern cwd : Value) : Action (List String) := do
  let directory ← resolve root [] cwd
  let matcher ← compile (← ofResult (Path.ofValue pattern))
  log globLogger .debug
    ("Globbing '" ++ directory ++ "' with " ++ Text.quoted matcher.regex)
  let entries ← list directory
  let found := (entries.filter fun e => matcher.matches? e.name).map Tree.Entry.path
  log globLogger .debug
    ("Glob '" ++ pattern.shown ++ "' matched " ++ toString found.length ++ " entries in '" ++
      directory ++ "'")
  return found

/-- The paths of the entries that a full pattern finds. -/
def glob (pattern cwd : Value) : Action (List String) := do
  let target := GlobTarget.ofPattern (← ofResult (Path.ofValue pattern))
  globIn (.text target.directory) (.text target.leaf) cwd

end Action

end DirGlob
