import DirGlob.Proofs.Pattern.Compiled

set_option autoImplicit false

/-! # The groups of an expression

The expression of a pattern without brackets has one group for each unescaped opening brace. While
the fragments are read, a group that is still open counts as one already (`Nest.groups`); then an
opening parenthesis is the only fragment that changes the number. -/

namespace DirGlob.Regex

/-! ## Groups of a nest -/

/-- The number of groups that have been closed within a frame. -/
def Frame.groups (f : Frame) : Nat := f.complete.elim 0 Regex.groups + f.current.groups

theorem Frame.groups_body (f : Frame) : f.body.groups = f.groups := by
  obtain ⟨position, complete, current⟩ := f
  cases complete with
  | none => exact (Nat.zero_add _).symm
  | some r => rfl

theorem Frame.groups_push (f : Frame) (item : Regex) :
    (f.push item).groups = f.groups + item.groups := by
  simp only [Frame.groups, Frame.push, Regex.groups]
  omega

theorem Frame.groups_bar (f : Frame) : f.bar.groups = f.groups := by
  rw [← Frame.groups_body f]
  rfl

/-- The number of groups of a nest, those that are still open included. -/
def Nest.groups (n : Nest) : Nat :=
  n.inner.groups + n.outer.foldr (fun f k => f.groups + 1 + k) 0

theorem Nest.groups_push (n : Nest) (item : Regex) :
    (n.push item).groups = n.groups + item.groups := by
  simp only [Nest.groups, Nest.push, Frame.groups_push]
  omega

theorem Nest.groups_openGroup (n : Nest) : n.openGroup.groups = n.groups + 1 := by
  have hopened : (Frame.opened 0).groups = 0 := rfl
  simp only [Nest.groups, Nest.openGroup, List.foldr_cons]
  omega

theorem Nest.groups_closeGroup (n : Nest) : n.closeGroup.groups = n.groups := by
  obtain ⟨inner, outer⟩ := n
  cases outer with
  | nil => rfl
  | cons f outer =>
      have hgroup : (Regex.group inner.body).groups = inner.groups + 1 := by
        rw [Regex.groups, Frame.groups_body]
      simp only [Nest.groups, Nest.closeGroup, Frame.groups_push, hgroup, List.foldr_cons]
      omega

/-- Only an opening parenthesis changes the number of groups. -/
theorem Nest.groups_after (n : Nest) (f : Pattern.Fragment) :
    (n.after f).groups = n.groups + if f = .openGroup then 1 else 0 := by
  cases f with
  | separator guarded => cases guarded <;> simp [Nest.after, Nest.groups_push, Regex.groups]
  | openGroup => exact Nest.groups_openGroup n
  | closeGroup => exact Nest.groups_closeGroup n
  | bar => simp [Nest.after, Nest.bar, Nest.groups, Frame.groups_bar]
  | _ => simp [Nest.after, Nest.groups_push, Regex.groups]

theorem Nest.groups_foldl (n : Nest) (fs : List Pattern.Fragment) :
    (fs.foldl Nest.after n).groups = n.groups + fs.count .openGroup := by
  induction fs generalizing n with
  | nil => rfl
  | cons f fs ih =>
      rw [List.foldl_cons, ih, Nest.groups_after, List.count_cons]
      by_cases hf : f = .openGroup
      · simp only [hf, if_true, beq_self_eq_true]
        omega
      · simp only [hf, beq_iff_eq, if_false]
        omega

end DirGlob.Regex

namespace DirGlob.Pattern

open Regex (Nest)

/-! ## Groups and braces -/

/-- Each opening brace that is an element gives an opening parenthesis, and nothing else does. -/
theorem count_openGroup (b : Braces) (es : List Element) :
    (fragmentsFrom b es).count .openGroup = es.count (.plain '{') := by
  induction es generalizing b with
  | nil => simp [fragmentsFrom, List.count_replicate]
  | cons e es ih =>
      rw [fragmentsFrom, List.count_cons, List.count_cons, ih]
      simp only [beq_iff_eq, Braces.fragment_eq_openGroup_iff]

theorem groups_expression (pattern : List Char) :
    (expression pattern).groups = (unescaped pattern).count '{' := by
  have hanchored : (anchored pattern).groups = 0 := by
    unfold anchored
    split <;> rfl
  have houter : ((fragments pattern).foldl Nest.after (anchored pattern)).outer = [] :=
    outer_fragmentsFrom (length_outer_anchored pattern) _
  have hbody : (expression pattern).groups
      = (((fragments pattern).foldl Nest.after (anchored pattern)).push .finish).groups := by
    rw [expression, Regex.Frame.groups_body, Nest.groups]
    simp only [Nest.push, houter, List.foldr_nil]
    rfl
  calc (expression pattern).groups
      = ((fragments pattern).foldl Nest.after (anchored pattern)).groups := by
        rw [hbody, Nest.groups_push]
        rfl
    _ = (fragments pattern).count .openGroup := by rw [Nest.groups_foldl, hanchored, Nat.zero_add]
    _ = (elements pattern).count (.plain '{') := count_openGroup _ _
    _ = (unescaped pattern).count '{' := count_plain_elements (by decide) (by decide) pattern

/-- **A pattern without unescaped brackets always compiles**, and to an expression with as many
    groups as the pattern has unescaped opening braces. -/
theorem exists_ofPattern_groups_eq {pattern : String} (h : '[' ∉ unescaped pattern.toList) :
    ∃ m, Matcher.ofPattern pattern = .ok m ∧
      m.groups = (unescaped pattern.toList).count '{' :=
  ⟨_, ofPattern_of_bracketFree h, groups_expression pattern.toList⟩

theorem groups_of_mixed_braces : '[' ∉ unescaped "\x7d\x7ba,\\\x7b\\[\x7bb\x7d*|(?".toList ∧
    ∃ m, Matcher.ofPattern "\x7d\x7ba,\\\x7b\\[\x7bb\x7d*|(?" = .ok m ∧ m.groups = 2 :=
  ⟨by decide, exists_ofPattern_groups_eq (by decide)⟩

end DirGlob.Pattern
