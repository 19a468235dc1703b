import DirGlob.Failure
import DirGlob.Path.Components
import DirGlob.Path.Join

set_option autoImplicit false

/-! # A tree of directories

A tree holds files, directories with their entries in listing order, symbolic links, and
directories that cannot be listed. A path is looked up in it component by component from the root:
empty components and `.` stay where they are, `..` goes to the directory above, and a link is
followed from the directory that holds it. Nothing lies under a file, not even `.`, and a walk that
meets too many links fails.

The walk ends because each step uses up a component or, at a link, one of the links that may still
be followed. -/

namespace DirGlob

/-- A node of a tree. -/
inductive Node where
  | file
  /-- A directory with its entries in listing order. -/
  | directory (entries : List (String × Node))
  | link (target : String)
  /-- A directory that cannot be listed. -/
  | faulty (fault : ListingFault)
deriving Repr, Inhabited

namespace Node

/-- Whether the node is a directory. -/
def isDirectory : Node → Bool
  | directory _ | faulty _ => true
  | file | link _ => false

/-- The entry of a directory that has this name. -/
def entry? (name : String) : Node → Option Node
  | directory entries => (entries.find? (·.1 = name)).map (·.2)
  | _ => none

end Node

/-- A node and the directories above it, the nearest first. -/
structure Place where
  node : Node
  above : List Node
deriving Repr

namespace Place

/-- The directory above a place; above the root there is only the root. -/
def parent (p : Place) : Place :=
  match p.above with
  | [] => p
  | d :: above => ⟨d, above⟩

/-- The entry of a directory, as a place. -/
def child? (p : Place) (name : String) : Option Place :=
  (p.node.entry? name).map fun n => ⟨n, p.node :: p.above⟩

/-- The root above a place. -/
def root (p : Place) : Place := ⟨p.above.getLast?.getD p.node, []⟩

end Place

/-- The components of a path, the empty ones included. -/
def Path.steps (path : String) : List String := (Path.pieces '/' path.toList).map String.ofList

/-- Where the walk along a link's target starts: at the directory of the link, or at the root. -/
def Place.linkStart (p : Place) (target : String) : Place :=
  if Path.isAbsolute target then p.root else p

/-- Walks from a place along components. At most `links` links are followed, and a link that the
    last component leads to only if `follow` says so. -/
def Place.walk (follow : Bool) (links : Nat) (p : Place) : List String → Option Place
  | [] => some p
  | c :: cs =>
    if !p.node.isDirectory then none
    else if c = "" ∨ c = "." then p.walk follow links cs
    else if c = ".." then p.parent.walk follow links cs
    else match p.child? c with
      | none => none
      | some q => match q.node with
        | .link target =>
          if cs = [] ∧ !follow then some q
          else match links with
            | 0 => none
            | links + 1 => (p.linkStart target).walk follow links (Path.steps target ++ cs)
        | _ => q.walk follow links cs
termination_by cs => (links, cs.length)

/-- A directory tree: the entries of the root, in listing order. -/
structure Tree where
  entries : List (String × Node)
deriving Repr, Inhabited

namespace Tree

/-- How many links a walk may follow. -/
def maxLinks : Nat := 40

/-- The root as a place. -/
def root (t : Tree) : Place := ⟨.directory t.entries, []⟩

/-- Looks a path up from the root. The empty path leads nowhere. -/
def lookup? (t : Tree) (follow : Bool) (path : String) : Option Place :=
  if path = "" then none else t.root.walk follow maxLinks (Path.steps path)

/-- Whether the path leads to a directory; a path that holds a NUL does not. -/
def isDirectory (t : Tree) (path : String) : Bool :=
  !path.toList.contains '\x00' && (t.lookup? true path).any (·.node.isDirectory)

/-- An entry of a directory: its name, and its path under the path of the directory. -/
structure Entry where
  name : String
  path : String
deriving Repr, DecidableEq

/-- Lists the entries of a directory, in listing order. -/
def list (t : Tree) (path : String) : Except Failure (List Entry) :=
  if t.isDirectory path then
    match (t.lookup? true path).map Place.node with
    | some (.directory entries) => .ok (entries.map fun e => ⟨e.1, Path.join path e.1⟩)
    | some (.faulty fault) => .error (.listing fault path)
    | _ => .error (.directoryNotFound (.text path))
  else .error (.directoryNotFound (.text path))

end Tree

end DirGlob
