import DirGlob.Path.Normalize
import DirGlob.Tree.Basic

set_option autoImplicit false

/-! # Canonical paths

The canonical form of a path is absolute and free of links, of `.` and of `..`. Components are
taken one by one onto a path that is already canonical; a component that is a link is replaced by
the canonical form of its target. Components that do not exist are kept as they are. A link that
is met while its own target is being followed is left in place, together with everything that has
not been read by then.

Following links from directory to directory can go on for ever, so the number of links that are
nested in each other is limited. -/

namespace DirGlob.Tree

/-! ## Links -/

/-- The directory above a canonical path, in which only leading components can be `..`. -/
def up (path : String) : String :=
  if path = "" then ".."
  else
    let (before, last) := Path.cutLast path
    if last = ".." then Path.join (Path.join before "..") ".." else before

/-- The target of the link that a path leads to, if it leads to a link. -/
def linkTarget? (t : Tree) (path : String) : Except Failure (Option String) :=
  if path.toList.contains '\x00' then .error .nulInPath
  else .ok ((t.lookup? false path).bind fun p =>
    match p.node with
    | .link target => some target
    | _ => none)

/-- What is known of the links met so far: where each leads, once that is found out. -/
abbrev KnownLinks := List (String × Option String)

/-- The outcome of following components: a canonical path, or the path at which a loop of links
    ended it, with everything that had not been read. -/
structure Followed where
  path : String
  looped : Bool
  known : KnownLinks

/-- The rest of a path after a separator. -/
def restOf (cs : List String) : String := "/".intercalate cs

mutual

/-- Takes a path onto a canonical one; `nested` links may still be nested. -/
def follow (t : Tree) (nested : Nat) (known : KnownLinks) (path target : String) :
    Except Failure Followed :=
  if Path.isAbsolute target then
    followSteps t nested known "/" (Path.steps (String.ofList target.toList.tail))
  else followSteps t nested known path (Path.steps target)
termination_by (nested, 1, 0)

/-- Takes components onto a canonical path. -/
def followSteps (t : Tree) (nested : Nat) (known : KnownLinks) (path : String) :
    List String → Except Failure Followed
  | [] => .ok ⟨path, false, known⟩
  | c :: cs =>
    if c = "" ∨ c = "." then followSteps t nested known path cs
    else if c = ".." then followSteps t nested known (up path) cs
    else do
      let next := Path.join path c
      match ← linkTarget? t next with
      | none => followSteps t nested known next cs
      | some target => match known.lookup next with
        | some (some found) => followSteps t nested known found cs
        | some none => return ⟨Path.join next (restOf cs), true, known⟩
        | none => match nested with
          | 0 => .error .endlessLinks
          | nested + 1 =>
            let inner ← follow t nested ((next, none) :: known) path target
            if inner.looped then return ⟨Path.join inner.path (restOf cs), true, inner.known⟩
            else followSteps t (nested + 1) ((next, some inner.path) :: inner.known) inner.path cs
termination_by cs => (nested, 0, cs.length)

end

/-- How many links may be nested in each other. No rule of the library or of paths sets this limit:
    the number stands for the depth of recursion at which the interpreter gives up, of which each
    nested link takes a part, and which also depends on how deep the caller stands already. -/
def maxNested : Nat := 900

/-- The canonical form of a path. -/
def canonical (t : Tree) (path : String) : Except Failure String := do
  let followed ← follow t maxNested [] "" path
  return Path.normalize (Path.join "/" followed.path)

end DirGlob.Tree
