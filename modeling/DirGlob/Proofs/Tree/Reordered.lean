import DirGlob.Proofs.Tree.Listing
import Mathlib.Data.List.Forall2
import Mathlib.Data.List.Nodup

set_option autoImplicit false

/-! # Trees that differ in listing order

Two trees are the same but for order if their directories list entries with the same names, each in
an order of its own, and what stands under a name is the same but for order again. A path is walked
by names, so it leads to such nodes in both trees, through links and upwards as well
(`Place.SameButOrder.walk`). A directory is listed with the same entries then, or cannot be listed
for the same reason (`Tree.SameButOrder.list`). -/

namespace DirGlob

/-- The nodes are the same, except that directories may list their entries in another order. -/
inductive Node.SameButOrder : Node → Node → Prop where
  | file : SameButOrder .file .file
  | directory {entries entries' : List (String × Node)}
      (names : (entries.map (·.1)).Perm (entries'.map (·.1)))
      (below : ∀ e ∈ entries, ∀ e' ∈ entries', e.1 = e'.1 → SameButOrder e.2 e'.2) :
      SameButOrder (.directory entries) (.directory entries')
  | link (target : String) : SameButOrder (.link target) (.link target)
  | faulty (fault : ListingFault) : SameButOrder (.faulty fault) (.faulty fault)

/-- The trees are the same, except that directories may list their entries in another order. -/
def Tree.SameButOrder (t t' : Tree) : Prop :=
  Node.SameButOrder (.directory t.entries) (.directory t'.entries)

/-- Names that differ belong to one entry each, so a node is the same as itself. -/
theorem Node.WellNamed.sameButOrder_refl {n : Node} (h : n.WellNamed) : n.SameButOrder n := by
  induction h with
  | file => exact .file
  | directory distinct _ _ ih =>
      refine .directory (.refl _) fun e he e' he' hname => ?_
      obtain rfl : e = e' := List.inj_on_of_nodup_map distinct he he' hname
      exact ih e he
  | link target => exact .link target
  | faulty fault => exact .faulty fault

/-- Another order in one directory is covered. -/
theorem Node.WellNamed.sameButOrder_of_perm {entries entries' : List (String × Node)}
    (h : Node.WellNamed (.directory entries)) (hperm : entries.Perm entries') :
    Node.SameButOrder (.directory entries) (.directory entries') := by
  cases h.sameButOrder_refl with
  | directory _ below =>
      exact .directory (hperm.map _) fun e he e' he' =>
        below e he e' (hperm.mem_iff.2 he')

namespace Node.SameButOrder

variable {n n' : Node}

theorem isDirectory (h : n.SameButOrder n') : n.isDirectory = n'.isDirectory := by
  cases h <;> rfl

theorem eq_link_iff (h : n.SameButOrder n') (target : String) :
    n = .link target ↔ n' = .link target := by
  cases h <;> simp

theorem find?_eq_none_iff_not_mem {entries : List (String × Node)} {name : String} :
    entries.find? (·.1 = name) = none ↔ name ∉ entries.map (·.1) := by
  simp only [List.find?_eq_none, decide_eq_true_eq, List.mem_map, not_exists, not_and]

/-- Whatever has a name in the one directory has its counterpart under that name in the other. -/
theorem entry? (h : n.SameButOrder n') (name : String) :
    Option.Rel SameButOrder (n.entry? name) (n'.entry? name) := by
  cases h with
  | @directory entries entries' names below =>
      rw [Node.entry?, Node.entry?]
      cases hfind : entries.find? (·.1 = name) with
      | none =>
          have hnone : entries'.find? (·.1 = name) = none := by
            rw [find?_eq_none_iff_not_mem, ← names.mem_iff, ← find?_eq_none_iff_not_mem]
            exact hfind
          rw [hnone]
          exact .none
      | some e =>
          cases hfind' : entries'.find? (·.1 = name) with
          | none =>
              rw [find?_eq_none_iff_not_mem, ← names.mem_iff, ← find?_eq_none_iff_not_mem,
                hfind] at hfind'
              cases hfind'
          | some e' =>
              have hname : e.1 = name := by simpa using List.find?_some hfind
              have hname' : e'.1 = name := by simpa using List.find?_some hfind'
              exact .some (below e (List.mem_of_find?_eq_some hfind) e'
                (List.mem_of_find?_eq_some hfind') (hname.trans hname'.symm))
  | _ => exact .none

end Node.SameButOrder

/-! ## Walking -/

/-- The places have the same nodes but for order, and so do the directories above them. -/
structure Place.SameButOrder (p q : Place) : Prop where
  node : p.node.SameButOrder q.node
  above : List.Forall₂ Node.SameButOrder p.above q.above

namespace Place.SameButOrder

variable {p q : Place}

theorem parent (h : p.SameButOrder q) : p.parent.SameButOrder q.parent := by
  obtain ⟨node, above⟩ := p
  obtain ⟨node', above'⟩ := q
  obtain ⟨hnode, habove⟩ := h
  cases habove with
  | nil => exact ⟨hnode, .nil⟩
  | cons hd habove => exact ⟨hd, habove⟩

theorem root (h : p.SameButOrder q) : p.root.SameButOrder q.root := by
  have hlast {n n' : Node} {above above' : List Node} (hn : n.SameButOrder n')
      (habove : List.Forall₂ Node.SameButOrder above above') :
      Node.SameButOrder (above.getLast?.getD n) (above'.getLast?.getD n') := by
    induction habove generalizing n n' with
    | nil => exact hn
    | cons hd _ ih =>
        rw [List.getLast?_cons, List.getLast?_cons]
        exact ih hd
  exact ⟨hlast h.node h.above, .nil⟩

theorem linkStart (h : p.SameButOrder q) (target : String) :
    (p.linkStart target).SameButOrder (q.linkStart target) := by
  rw [Place.linkStart, Place.linkStart]
  split
  · exact h.root
  · exact h

theorem child? (h : p.SameButOrder q) (name : String) :
    Option.Rel Place.SameButOrder (p.child? name) (q.child? name) := by
  rw [Place.child?, Place.child?]
  have hentry := h.node.entry? name
  generalize p.node.entry? name = n at hentry
  generalize q.node.entry? name = n' at hentry
  cases hentry with
  | none => exact .none
  | some hn => exact .some ⟨hn, .cons h.node h.above⟩

theorem child?_eq_none (h : p.SameButOrder q) {name : String} (hp : p.child? name = none) :
    q.child? name = none := by
  have hchild := h.child? name
  rw [hp] at hchild
  generalize q.child? name = q' at hchild
  cases hchild
  rfl

theorem exists_child? (h : p.SameButOrder q) {name : String} {p' : Place}
    (hp : p.child? name = some p') : ∃ q', q.child? name = some q' ∧ p'.SameButOrder q' := by
  have hchild := h.child? name
  rw [hp] at hchild
  generalize q.child? name = q' at hchild
  cases hchild with
  | some h' => exact ⟨_, rfl, h'⟩

/-- From places that are the same but for order a path leads to such places again. -/
theorem walk (h : p.SameButOrder q) (follow : Bool) (links : Nat) (cs : List String) :
    Option.Rel Place.SameButOrder (p.walk follow links cs) (q.walk follow links cs) := by
  have hdirectory {p q : Place} (h : p.SameButOrder q) (hp : ¬(!p.node.isDirectory) = true) :
      q.node.isDirectory = true := by
    rw [← h.node.isDirectory]
    simpa using hp
  have hentry {c : String} (hc : ¬(c = "" ∨ c = ".")) : Path.isIdle c = false := by
    simpa [Path.isIdle] using hc
  -- The induction follows the walk in the one tree, and each of its steps is found in the other.
  fun_induction Place.walk follow links p cs generalizing q with
  | case1 =>
      rw [walk_nil]
      exact .some h
  | case2 links p c cs hfile =>
      have hfile' : q.node.isDirectory = false := by
        rw [← h.node.isDirectory]
        simpa using hfile
      rw [walk_cons_of_not_directory hfile']
      exact .none
  | case3 links p c cs hp hidle ih =>
      rw [walk_cons_of_isIdle (hdirectory h hp) (by simpa [Path.isIdle] using hidle)]
      exact ih h
  | case4 links p cs hp _ ih =>
      rw [walk_cons_parent (hdirectory h hp)]
      exact ih h.parent
  | case5 links p c cs hp hc hparent hchild =>
      rw [walk_cons_entry (hdirectory h hp) (hentry hc) hparent, h.child?_eq_none hchild]
      exact .none
  | case6 links p c cs hp hc hparent p' hchild target hlink hlast =>
      obtain ⟨q', hq, h'⟩ := h.exists_child? hchild
      have hlink' := (h'.node.eq_link_iff target).1 hlink
      simp only [walk_cons_entry (hdirectory h hp) (hentry hc) hparent, hq, hlink', if_pos hlast]
      exact .some h'
  | case7 p c cs hp hc hparent p' hchild target hlink hlast =>
      obtain ⟨q', hq, h'⟩ := h.exists_child? hchild
      have hlink' := (h'.node.eq_link_iff target).1 hlink
      simp only [walk_cons_entry (hdirectory h hp) (hentry hc) hparent, hq, hlink', if_neg hlast]
      exact .none
  | case8 p c cs hp hc hparent p' hchild target hlink hlast links ih =>
      obtain ⟨q', hq, h'⟩ := h.exists_child? hchild
      have hlink' := (h'.node.eq_link_iff target).1 hlink
      simp only [walk_cons_entry (hdirectory h hp) (hentry hc) hparent, hq, hlink', if_neg hlast]
      exact ih (h.linkStart target)
  | case9 links p c cs hp hc hparent p' hchild hlink ih =>
      obtain ⟨q', hq, h'⟩ := h.exists_child? hchild
      rw [walk_cons_entry (hdirectory h hp) (hentry hc) hparent, hq]
      simp only
      split
      · next target hlink' => exact absurd ((h'.node.eq_link_iff target).2 hlink') (hlink target)
      · exact ih h'

end Place.SameButOrder

/-! ## Listing -/

/-- The results are the same, except that lists may have another order. -/
inductive SameUpToOrder {α : Type} : Except Failure (List α) → Except Failure (List α) → Prop where
  | ok {l l' : List α} (perm : l.Perm l') : SameUpToOrder (.ok l) (.ok l')
  | error (f : Failure) : SameUpToOrder (.error f) (.error f)

namespace Tree.SameButOrder

variable {t t' : Tree}

/-- A path leads to the same directory in both trees, or to none in both. -/
theorem directory? (h : t.SameButOrder t') (path : String) :
    Option.Rel Place.SameButOrder (t.directory? path) (t'.directory? path) := by
  rw [Tree.directory?, Tree.directory?, lookup?, lookup?]
  split
  · exact .none
  · split
    · exact .none
    · have hroot : t.root.SameButOrder t'.root := ⟨h, .nil⟩
      have hwalk := hroot.walk true maxLinks (Path.steps path)
      generalize t.root.walk true maxLinks (Path.steps path) = p at hwalk
      generalize t'.root.walk true maxLinks (Path.steps path) = q at hwalk
      cases hwalk with
      | none => exact .none
      | some hpq =>
          rw [Option.filter_some, Option.filter_some, hpq.node.isDirectory]
          split
          · exact .some hpq
          · exact .none

/-- A directory is listed with the same entries in both trees, or cannot be listed for the same
    reason. -/
theorem list (h : t.SameButOrder t') (path : String) :
    SameUpToOrder (t.list path) (t'.list path) := by
  rw [list_eq, list_eq]
  have hdirectory := h.directory? path
  generalize t.directory? path = p at hdirectory
  generalize t'.directory? path = q at hdirectory
  cases hdirectory with
  | none => exact .error _
  | @some p q hpq =>
      have hnode := hpq.node
      rw [Option.map_some, Option.map_some]
      generalize p.node = n at hnode
      generalize q.node = n' at hnode
      cases hnode with
      | directory names below =>
          have hentries := names.map fun name => (⟨name, Path.join path name⟩ : Entry)
          exact .ok (by simpa [Function.comp_def] using hentries)
      | faulty fault => exact .error _
      | _ => exact .error _

end Tree.SameButOrder

end DirGlob
