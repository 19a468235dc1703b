import DirGlob.Path.Components

set_option autoImplicit false

/-! # Normal form and directory of a path

The normal form of a path is found without looking anything up: empty components and `.` are left
out, and `..` takes the component before it away. -/

namespace DirGlob.Path

/-- Adds a component to the ones that are kept, which stand last first. -/
def addComponent (absolute : Bool) (kept : List (List Char)) (c : List Char) : List (List Char) :=
  if c = [] ∨ c = ['.'] then kept
  else if c ≠ ['.', '.'] then c :: kept
  else match kept with
    | [] => if absolute then [] else [c]
    | k :: rest => if k = ['.', '.'] then c :: kept else rest

/-- The separators that a path keeps at its start: one, or exactly two. -/
def leadingSeparators : List Char → List Char
  | '/' :: '/' :: '/' :: _ => ['/']
  | '/' :: '/' :: _ => ['/', '/']
  | '/' :: _ => ['/']
  | _ => []

/-- The path without `.`, without empty components, and without a `..` that something precedes. -/
def normalize (path : String) : String :=
  let start := leadingSeparators path.toList
  let kept := (pieces '/' path.toList).foldl (addComponent (!start.isEmpty)) []
  let text := start ++ ['/'].intercalate kept.reverse
  if text.isEmpty then "." else String.ofList text

/-- Cuts a path before its last component; separators at the end of the first part are dropped
    unless there is nothing else. -/
def cutLast (path : String) : String × String :=
  let cs := path.toList
  let last := (cs.reverse.takeWhile (· ≠ '/')).reverse
  let before := cs.take (cs.length - last.length)
  let trimmed := (before.reverse.dropWhile (· = '/')).reverse
  (String.ofList (if trimmed.isEmpty then before else trimmed), String.ofList last)

end DirGlob.Path
