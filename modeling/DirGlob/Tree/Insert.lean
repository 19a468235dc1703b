import DirGlob.Tree.Basic

set_option autoImplicit false

/-! # Building a tree

A tree is built by putting nodes at the ends of paths, which are given by the names along them. The
directories on the way are made if need be. -/

namespace DirGlob

namespace Node

/-- The entries of a directory; other nodes have none. -/
def entries : Node → List (String × Node)
  | directory entries => entries
  | file | link _ | faulty _ => []

/-- The node with another entry under a name: in the place of the one that is there, or at the
    end. -/
def setEntry (node : Node) (name : String) (entry : Node) : Node :=
  if (node.entry? name).isSome then
    directory (node.entries.map fun e => if e.1 = name then (name, entry) else e)
  else directory (node.entries ++ [(name, entry)])

/-- Changes the node at the end of a path, which is an empty directory if nothing is there. -/
def update (f : Node → Node) (node : Node) : List String → Node
  | [] => f node
  | name :: names =>
    node.setEntry name (((node.entry? name).getD (directory [])).update f names)

/-- Puts a node at the end of a path. -/
def insert (node : Node) (names : List String) (new : Node) : Node :=
  node.update (fun _ => new) names

/-- A directory with an entry for each name, in their order: the one that is there, or a file. -/
def withNames (node : Node) (names : List String) : Node :=
  directory (names.map fun name => (name, (node.entry? name).getD file))

end Node

/-- The tree below a node. -/
def Tree.ofRoot (root : Node) : Tree := ⟨root.entries⟩

end DirGlob
