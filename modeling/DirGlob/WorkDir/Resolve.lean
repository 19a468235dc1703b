import DirGlob.Path.Operand

set_option autoImplicit false

/-! # Resolving paths against a working directory

The working directory that paths are resolved against is a value of the library, not that of the
process, and it is absolute. A path is resolved by joining it to the base, which is the working
directory or an explicit directory joined to it; the path `.` stands for the base itself. No
component is interpreted: `..` and repeated separators stay as they are. -/

namespace DirGlob.WorkDir

/-- Resolves a path and what follows it against a base. -/
def resolveFrom (base path : String) (more : List String) : String :=
  let joined := Path.joinAll (if path = "." then base else path) more
  if Path.isAbsolute joined then joined else Path.join base joined

/-- What is resolved against an absolute base is absolute. -/
theorem isAbsolute_resolveFrom {base : String} (h : Path.isAbsolute base = true) (path : String)
    (more : List String) : Path.isAbsolute (resolveFrom base path more) = true := by
  simp only [resolveFrom]
  generalize Path.joinAll (if path = "." then base else path) more = joined
  split
  · assumption
  · rw [Path.isAbsolute_join, h, Bool.true_or]

/-- The base that paths are resolved against: the working directory, or an explicit directory. -/
def base (ambient : String) : Value → Except Failure String
  | .null => .ok ambient
  | cwd => (Path.ofValue cwd).map (Path.join ambient)

/-- Resolves values as paths; the explicit directory is looked at first. -/
def resolve (ambient : String) (path : Value) (more : List Value) (cwd : Value) :
    Except Failure String := do
  let base ← base ambient cwd
  return resolveFrom base (← Path.ofValue path) (← more.mapM Path.ofValue)

end DirGlob.WorkDir
