import DirGlob.Failure

set_option autoImplicit false

/-! # Errors to be reported

What a report shows of an error, whether it is a failure of this library or was raised elsewhere:
its full name, its text, and its trace. The trace of most errors is one line. -/

namespace DirGlob

/-- An error to be reported. -/
structure Raised where
  name : String
  text : String
  /-- The name and, unless it is empty, the text. -/
  trace : String := if text = "" then name else name ++ ": " ++ text
deriving Repr, DecidableEq

namespace Raised

/-- Where the names of this library's own errors belong. -/
def home : String := "fsglob.domain.errors."

/-- A failure as an error: its full name is longer, where the plain one is not enough. -/
def ofFailure (f : Failure) : Raised where
  name := match f with
    | .directoryNotFound _ => home ++ f.name
    | f => f.name
  text := f.message

/-- An error without rules of its own: its text is empty, or its only argument as it is shown, or
    all of them as they are written. -/
def plain (name : String) (arguments : List Value) : Raised where
  name
  text := match arguments with
    | [] => ""
    | [v] => v.shown
    | vs => (Value.tuple vs).written

/-- The missing of a key: a single argument is the key, as it is written. -/
def missingKey (arguments : List Value) : Raised :=
  match arguments with
  | [v] => { name := "KeyError", text := v.written }
  | vs => plain "KeyError" vs

/-- The missing of a directory, whose only argument is its path. -/
def missingDirectory : List Value → Except Unfit Raised
  | [path] => .ok (ofFailure (.directoryNotFound path))
  | [] => .error (.missing "DirectoryNotFound" "path")
  | vs => .error (.surplus "DirectoryNotFound" 2 2 (vs.length + 1))

end Raised

end DirGlob
