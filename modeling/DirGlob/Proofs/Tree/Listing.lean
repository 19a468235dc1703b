import DirGlob.Proofs.Tree.Walk

set_option autoImplicit false

/-! # Listing a directory

A directory is listed if its path leads to one that can be listed, and then its entries come with
their names and with the paths that the directory's own path is joined to (`list_eq_ok_iff`). Two
paths that lead the same way lead to the same directory (`directory?_congr`).

In a well-named tree the entries of a directory have different names, none of which is empty or
holds a separator. -/

namespace DirGlob

/-! ## Names of entries -/

/-- In the directories below a node the names of the entries differ from each other, are not empty
    and hold no separator. -/
inductive Node.WellNamed : Node → Prop where
  | file : WellNamed .file
  | directory {entries : List (String × Node)} (distinct : (entries.map (·.1)).Nodup)
      (names : ∀ e ∈ entries, e.1 ≠ "" ∧ '/' ∉ e.1.toList)
      (below : ∀ e ∈ entries, WellNamed e.2) : WellNamed (.directory entries)
  | link (target : String) : WellNamed (.link target)
  | faulty (fault : ListingFault) : WellNamed (.faulty fault)

theorem Node.WellNamed.entry? {node n : Node} {name : String} (h : node.WellNamed)
    (hn : node.entry? name = some n) : n.WellNamed := by
  cases h with
  | directory distinct names below =>
      obtain ⟨e, he, rfl⟩ := Option.map_eq_some_iff.1 hn
      exact below e (List.mem_of_find?_eq_some he)
  | _ => cases hn

/-- A tree in whose directories the names of the entries are as they have to be. -/
def Tree.WellNamed (t : Tree) : Prop := Node.WellNamed (.directory t.entries)

/-- A place in a well-named tree. -/
structure Place.WellNamed (p : Place) : Prop where
  node : p.node.WellNamed
  above : ∀ n ∈ p.above, n.WellNamed

namespace Place

variable {p q : Place} {follow : Bool} {links : Nat} {cs : List String}

/-- What is listed is there. -/
theorem isSome_child? {entries : List (String × Node)} (hnode : p.node = .directory entries)
    {name : String} (hname : name ∈ entries.map (·.1)) : (p.child? name).isSome = true := by
  obtain ⟨e, he, rfl⟩ := List.mem_map.1 hname
  rw [child?, Option.isSome_map, hnode, Node.entry?, Option.isSome_map, List.find?_isSome]
  exact ⟨e, he, decide_eq_true rfl⟩

/-- The names in a directory of a well-named tree. -/
theorem WellNamed.names (h : p.WellNamed) {entries : List (String × Node)}
    (hnode : p.node = .directory entries) :
    (entries.map (·.1)).Nodup ∧ ∀ name ∈ entries.map (·.1), name ≠ "" ∧ '/' ∉ name.toList := by
  have hdirectory := hnode ▸ h.node
  cases hdirectory with
  | directory distinct names below =>
      refine ⟨distinct, fun name hname => ?_⟩
      obtain ⟨e, he, rfl⟩ := List.mem_map.1 hname
      exact names e he

theorem WellNamed.parent (h : p.WellNamed) : p.parent.WellNamed := by
  obtain ⟨node, above⟩ := p
  cases above with
  | nil => exact h
  | cons d above =>
      refine ⟨h.above d List.mem_cons_self, fun n hn => ?_⟩
      exact h.above n (List.mem_cons_of_mem _ hn)

theorem WellNamed.root (h : p.WellNamed) : p.root.WellNamed := by
  refine ⟨?_, nofun⟩
  show (p.above.getLast?.getD p.node).WellNamed
  cases hlast : p.above.getLast? with
  | none => exact h.node
  | some n => exact h.above n (List.mem_of_getLast? hlast)

theorem WellNamed.linkStart (h : p.WellNamed) (target : String) :
    (p.linkStart target).WellNamed := by
  rw [Place.linkStart]
  split
  · exact h.root
  · exact h

theorem WellNamed.child? (h : p.WellNamed) {name : String} (hq : p.child? name = some q) :
    q.WellNamed := by
  obtain ⟨n, hn, rfl⟩ := Option.map_eq_some_iff.1 hq
  refine ⟨h.node.entry? hn, fun m hm => ?_⟩
  · rcases List.mem_cons.1 hm with rfl | hm
    · exact h.node
    · exact h.above m hm

/-- A walk in a well-named tree stays in it. -/
theorem WellNamed.walk (h : p.WellNamed) (hq : p.walk follow links cs = some q) : q.WellNamed := by
  fun_induction Place.walk follow links p cs with
  | case1 =>
      cases hq
      exact h
  | case2 => cases hq
  | case3 _ _ _ _ _ _ ih => exact ih h hq
  | case4 _ _ _ _ _ ih => exact ih h.parent hq
  | case5 => cases hq
  | case6 _ _ _ _ _ _ _ _ hchild =>
      cases hq
      exact h.child? hchild
  | case7 => cases hq
  | case8 _ _ _ _ _ _ _ _ target _ _ _ ih => exact ih (h.linkStart target) hq
  | case9 _ _ _ _ _ _ _ _ hchild _ ih => exact ih (h.child? hchild) hq

end Place

namespace Tree

variable {t : Tree} {path : String}

/-! ## The directory at the end of a path -/

/-- The directory that a path leads to; a path that holds a NUL leads to none. -/
def directory? (t : Tree) (path : String) : Option Place :=
  if path.toList.contains '\x00' then none
  else (t.lookup? true path).filter (·.node.isDirectory)

theorem isDirectory_of_directory? {d : Place} (h : t.directory? path = some d) :
    d.node.isDirectory = true := by
  rw [directory?] at h
  split at h
  · cases h
  · exact (Option.filter_eq_some_iff.1 h).2

theorem isDirectory_eq (t : Tree) (path : String) :
    t.isDirectory path = (t.directory? path).isSome := by
  rw [isDirectory, directory?]
  split
  · next h => rw [h]; rfl
  · next h =>
    rw [Bool.eq_false_iff.2 h]
    cases t.lookup? true path with
    | none => rfl
    | some p => cases hp : p.node.isDirectory <;> simp [hp]

/-- A directory is listed with the names of its entries, and with its own path before each. -/
theorem list_eq (t : Tree) (path : String) :
    t.list path = match (t.directory? path).map Place.node with
      | some (.directory entries) => .ok (entries.map fun e => ⟨e.1, Path.join path e.1⟩)
      | some (.faulty fault) => .error (.listing fault path)
      | _ => .error (.directoryNotFound (.text path)) := by
  rw [list, isDirectory_eq]
  cases h : t.directory? path with
  | none => rfl
  | some p =>
      have hp : t.lookup? true path = some p := by
        rw [directory?] at h
        split at h
        · cases h
        · exact (Option.filter_eq_some_iff.1 h).1
      rw [hp]
      rfl

theorem list_eq_ok_iff {listed : List Entry} :
    t.list path = .ok listed ↔
      ∃ d entries, t.directory? path = some d ∧ d.node = .directory entries ∧
        listed = entries.map fun e => ⟨e.1, Path.join path e.1⟩ := by
  rw [list_eq]
  cases t.directory? path with
  | none => simp
  | some d => cases hd : d.node <;> simp [hd, eq_comm]

/-- Each entry comes with the path of the directory joined to its name. -/
theorem path_of_mem_list {listed : List Entry} (h : t.list path = .ok listed) {e : Entry}
    (he : e ∈ listed) : e.path = Path.join path e.name := by
  obtain ⟨d, entries, -, -, rfl⟩ := list_eq_ok_iff.1 h
  obtain ⟨x, -, rfl⟩ := List.mem_map.1 he
  rfl

/-- Paths that lead the same way lead to the same directory. -/
theorem directory?_congr {path' : String} (h : Path.SameWay path path') :
    t.directory? path = t.directory? path' := by
  have hnul : path.toList.contains '\x00' = path'.toList.contains '\x00' :=
    Bool.eq_iff_iff.2 (by simpa using h.nul)
  rw [directory?, directory?, hnul, lookup?, lookup?]
  by_cases hp : path = ""
  · rw [if_pos hp, if_pos (h.empty.1 hp)]
  · rw [if_neg hp, if_neg (mt h.empty.2 hp), Place.directory_walk_moves, h.moves,
      ← Place.directory_walk_moves]

theorem WellNamed.directory? (h : t.WellNamed) {d : Place} (hd : t.directory? path = some d) :
    d.WellNamed := by
  rw [Tree.directory?] at hd
  split at hd
  · cases hd
  · obtain ⟨hlookup, -⟩ := Option.filter_eq_some_iff.1 hd
    rw [lookup?] at hlookup
    split at hlookup
    · cases hlookup
    · have hroot : t.root.WellNamed := ⟨h, fun _ hn => absurd hn List.not_mem_nil⟩
      exact hroot.walk hlookup

end Tree

end DirGlob
