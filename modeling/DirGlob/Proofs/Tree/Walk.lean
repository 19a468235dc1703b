import DirGlob.Proofs.Tree.SameWay

set_option autoImplicit false

/-! # Walking through a tree

A walk stays where it is at an empty component and at `.`, provided that it has come to a directory.
So these components matter only at the end of a path, where they demand a directory: two paths whose
other components are the same lead to the same directory, if they lead to one
(`directory_walk_moves`). -/

namespace DirGlob.Place

variable {follow : Bool} {links : Nat} {p q : Place} {c last : String} {cs : List String}

/-! ## One component -/

theorem walk_nil (follow : Bool) (links : Nat) (p : Place) : p.walk follow links [] = some p := by
  rw [walk]

/-- Nothing lies under what is no directory. -/
theorem walk_cons_of_not_directory (h : p.node.isDirectory = false) :
    p.walk follow links (c :: cs) = none := by
  rw [walk, h]
  rfl

theorem walk_cons_of_isIdle (h : p.node.isDirectory = true) (hc : Path.isIdle c = true) :
    p.walk follow links (c :: cs) = p.walk follow links cs := by
  rw [walk, h]
  simp only [Path.isIdle, Bool.or_eq_true, decide_eq_true_eq] at hc
  simp [hc]

theorem walk_cons_parent (h : p.node.isDirectory = true) :
    p.walk follow links (".." :: cs) = p.parent.walk follow links cs := by
  rw [walk, h]
  simp

/-- A component that names an entry: the walk goes on at the entry, or along the target of the link
    that the entry is. -/
theorem walk_cons_entry (h : p.node.isDirectory = true) (hc : Path.isIdle c = false)
    (hparent : c ≠ "..") :
    p.walk follow links (c :: cs) =
      match p.child? c with
      | none => none
      | some q => match q.node with
        | .link target =>
          if cs = [] ∧ !follow then some q
          else match links with
            | 0 => none
            | links + 1 => (p.linkStart target).walk follow links (Path.steps target ++ cs)
        | _ => q.walk follow links cs := by
  have hne : ¬(c = "" ∨ c = ".") := by simpa [Path.isIdle] using hc
  have hdirectory : ¬(!p.node.isDirectory) = true := by simp [h]
  exact (walk.eq_2 ..).trans ((if_neg hdirectory).trans ((if_neg hne).trans (if_neg hparent)))

/-! ## Whole walks -/

/-- A component at the end of a path that a walk stays where it is at demands a directory. -/
theorem walk_append_empty (links : Nat) (p : Place) (cs : List String) :
    p.walk true links (cs ++ [""]) = (p.walk true links cs).filter (·.node.isDirectory) := by
  induction links using Nat.strongRecOn generalizing p cs with
  | _ links ihlinks =>
      induction cs generalizing p with
      | nil =>
          cases h : p.node.isDirectory with
          | false =>
              rw [List.nil_append, walk_cons_of_not_directory h, walk_nil, Option.filter_some, h]
              rfl
          | true =>
              rw [List.nil_append, walk_cons_of_isIdle h rfl, walk_nil, Option.filter_some, h]
              rfl
      | cons c cs ih =>
          rw [List.cons_append]
          cases h : p.node.isDirectory with
          | false =>
              rw [walk_cons_of_not_directory h, walk_cons_of_not_directory h]
              rfl
          | true =>
              by_cases hc : Path.isIdle c = true
              · rw [walk_cons_of_isIdle h hc, walk_cons_of_isIdle h hc, ih]
              by_cases hparent : c = ".."
              · rw [hparent, walk_cons_parent h, walk_cons_parent h, ih]
              have hentry : Path.isIdle c = false := by simpa using hc
              rw [walk_cons_entry h hentry hparent, walk_cons_entry h hentry hparent]
              cases p.child? c with
              | none => rfl
              | some q =>
                  cases hq : q.node with
                  | link target =>
                      simp only [hq, Bool.not_true, Bool.false_eq_true, and_false, ↓reduceIte]
                      cases links with
                      | zero => rfl
                      | succ links =>
                          simp only [← List.append_assoc]
                          exact ihlinks links (Nat.lt_succ_self links) _ _
                  | _ => simpa only [hq] using ih q

/-- Before the end of a path, the components that a walk stays where it is at do not matter. -/
theorem walk_moves (follow : Bool) (links : Nat) (p : Place) (cs : List String) (last : String) :
    p.walk follow links (cs ++ [last]) = p.walk follow links (Path.moves cs ++ [last]) := by
  induction links using Nat.strongRecOn generalizing p cs with
  | _ links ihlinks =>
      induction cs generalizing p with
      | nil => rfl
      | cons c cs ih =>
          rw [List.cons_append]
          cases h : p.node.isDirectory with
          | false =>
              obtain ⟨d, ds, hds⟩ : ∃ d ds, Path.moves (c :: cs) ++ [last] = d :: ds :=
                List.exists_cons_of_ne_nil (by simp)
              rw [hds, walk_cons_of_not_directory h, walk_cons_of_not_directory h]
          | true =>
              by_cases hc : Path.isIdle c = true
              · rw [walk_cons_of_isIdle h hc, Path.moves_cons_of_isIdle hc, ih]
              have hentry : Path.isIdle c = false := by simpa using hc
              rw [Path.moves_cons hentry, List.cons_append]
              by_cases hparent : c = ".."
              · rw [hparent, walk_cons_parent h, walk_cons_parent h, ih]
              rw [walk_cons_entry h hentry hparent, walk_cons_entry h hentry hparent]
              cases p.child? c with
              | none => rfl
              | some q =>
                  cases hq : q.node with
                  | link target =>
                      simp only [hq, List.append_eq_nil_iff, List.cons_ne_nil, and_false, false_and,
                        ↓reduceIte]
                      cases links with
                      | zero => rfl
                      | succ links =>
                          have hlt := Nat.lt_succ_self links
                          simp only [← List.append_assoc]
                          rw [ihlinks links hlt,
                            ihlinks links hlt _ (Path.steps target ++ Path.moves cs)]
                          simp only [Path.moves_append, Path.moves_moves]
                  | _ => simpa only [hq] using ih q

/-- Which directory a walk comes to depends only on the components that move it. -/
theorem directory_walk_moves (links : Nat) (p : Place) (cs : List String) :
    (p.walk true links cs).filter (·.node.isDirectory) =
      (p.walk true links (Path.moves cs)).filter (·.node.isDirectory) := by
  rw [← walk_append_empty, ← walk_append_empty, walk_moves]

end DirGlob.Place
