import DirGlob.Proofs.Pattern.Escape
import DirGlob.Proofs.Pattern.Fragments
import DirGlob.Proofs.Pattern.Reading

set_option autoImplicit false

/-! # Compiling patterns without brackets

The text of a pattern's expression is well formed whatever the braces, backslashes, commas and
special characters of the pattern are, unless an unescaped bracket opens a character set. The
expression that is read back is `expression`, which is put together from the fragments without any
text in between (`ofPattern_of_bracketFree`). -/

namespace DirGlob.Pattern

open Regex (Nest)

/-! ## Fragments of elements -/

/-- The element opens no character set, and no backslash is left over in it. -/
def Element.IsBracketFree (e : Element) : Prop := ∀ c, e = .plain c → c ≠ '[' ∧ c ≠ '\\'

theorem isBracketFree_of_mem {p : List Char} (h : '[' ∉ unescaped p) {e : Element}
    (he : e ∈ elements p) : e.IsBracketFree := by
  rintro c rfl
  obtain ⟨hmem, hb, -⟩ := mem_unescaped_of_plain he
  refine ⟨?_, hb⟩
  rintro rfl
  exact h hmem

theorem isAlphanum_of_keepsBackslash {c : Char} (h : keepsBackslash c = true) :
    c.isAlphanum = false := by
  rw [keepsBackslash, List.contains_iff_mem] at h
  have hall : ("()[]{}?*+-|^$\\.&~# \t\n\r\x0b\x0c".toList.all fun d => !d.isAlphanum) = true := by
    decide
  simpa using List.all_eq_true.1 hall c h

theorem isAlphanum_of_isSpecial {c : Char} (h : isSpecial c = true) : c.isAlphanum = false := by
  rw [isSpecial, List.contains_iff_mem] at h
  have hall : (".()|+^$@%".toList.all fun d => !d.isAlphanum) = true := by decide
  simpa using List.all_eq_true.1 hall c h

theorem isOrdinary_of_keepsBackslash {c : Char} (h : keepsBackslash c = false) :
    Nest.isOrdinary c = true := by
  rw [Nest.isOrdinary, Bool.not_eq_true', ← Bool.not_eq_true, List.contains_iff_mem]
  intro hmem
  have hall : "\\()|*^[?".toList.all keepsBackslash = true := by decide
  rw [List.all_eq_true.1 hall c hmem] at h
  cases h

theorem isOrdinary_of_isLiteral {b : Braces} {c : Char} (he : (Element.plain c).IsBracketFree)
    (hc : b.IsLiteral c) (hs : isSpecial c = false) : Nest.isOrdinary c = true := by
  obtain ⟨hbracket, hb⟩ := he c rfl
  rw [Nest.isOrdinary, Bool.not_eq_true', ← Bool.not_eq_true, List.contains_iff_mem]
  intro hmem
  have hall : ("\\()|*^[?".toList.all fun d =>
      d = '*' ∨ d = '?' ∨ d = '[' ∨ d = '\\' ∨ isSpecial d = true) = true := by decide
  rcases of_decide_eq_true (List.all_eq_true.1 hall c hmem) with h | h | h | h | h
  · exact hc.star h
  · exact hc.one h
  · exact hbracket h
  · exact hb h
  · rw [hs] at h
    cases h

/-- What an element gives can be read where as many groups are open as the braces say. -/
theorem admits_fragment {b : Braces} {n : Nest} (hn : n.outer.length = b.openGroups) {e : Element}
    (he : e.IsBracketFree) : n.Admits (b.fragment e) := by
  have hgives := b.gives_fragment e
  generalize b.fragment e = f at hgives
  cases hgives with
  | kept h => exact isAlphanum_of_keepsBackslash h
  | bare h => exact isOrdinary_of_keepsBackslash h
  | closeGroup h =>
      show n.outer ≠ []
      rw [← List.length_pos_iff, hn]
      exact h
  | special hc h => exact isAlphanum_of_isSpecial h
  | char hc h => exact isOrdinary_of_isLiteral he hc h
  | _ => trivial

/-- The braces count the groups that are open. -/
theorem length_outer_after {b : Braces} {n : Nest} (hn : n.outer.length = b.openGroups)
    (e : Element) : (n.after (b.fragment e)).outer.length = (b.after e).openGroups := by
  have hgives := b.gives_fragment e
  generalize b.fragment e = f at hgives
  cases hgives with
  | separator dotted => cases dotted <;> exact hn
  | openGroup => exact congrArg (· + 1) hn
  | closeGroup h =>
      obtain ⟨inner, outer⟩ := n
      cases outer with
      | nil => exact absurd hn (by simp only [List.length_nil]; omega)
      | cons f outer =>
          show outer.length = b.openGroups - 1
          rw [← hn, List.length_cons, Nat.add_sub_cancel]
  | strayClose h =>
      show n.outer.length = b.openGroups - 1
      omega
  | special hc h =>
      rw [hc.after_eq]
      exact hn
  | char hc h =>
      rw [hc.after_eq]
      exact hn
  | _ => exact hn

/-! ## The expression -/

/-- The nest of which only the anchor at the start has been read, and the guard unless the pattern
    starts with a dot. -/
def anchored (pattern : List Char) : Nest :=
  if pattern.head? = some '.' then Nest.empty.push .start
  else (Nest.empty.push .start).push .notDot

/-- The expression of a pattern, put together from its fragments. -/
def expression (pattern : List Char) : Regex :=
  (((fragments pattern).foldl Nest.after (anchored pattern)).push .finish).inner.body

theorem takes_anchors (pattern : List Char) :
    Nest.empty.Takes ('^' :: if pattern.head? = some '.' then [] else guardText)
      (anchored pattern) := by
  unfold anchored
  by_cases hdot : pattern.head? = some '.'
  · rw [if_pos hdot, if_pos hdot]
    exact Nest.takes_start _
  · rw [if_neg hdot, if_neg hdot]
    exact Nest.takes_append (Nest.takes_start _) (Nest.takes_guard _)

theorem outer_closing {k : Nat} {n : Nest} (hn : n.outer.length = k) :
    ((List.replicate k Fragment.closeGroup).foldl Nest.after n).outer = [] := by
  induction k generalizing n with
  | zero => exact List.length_eq_zero_iff.1 hn
  | succ k ih =>
      obtain ⟨inner, outer⟩ := n
      cases outer with
      | nil => cases hn
      | cons f outer => exact ih (n := ⟨f.push (.group inner.body), outer⟩) (by simpa using hn)

theorem takes_closing {k : Nat} {n : Nest} (hn : n.outer.length = k) :
    n.Takes ((List.replicate k Fragment.closeGroup).flatMap Fragment.text)
      ((List.replicate k Fragment.closeGroup).foldl Nest.after n) := by
  induction k generalizing n with
  | zero => exact Nest.takes_nil n
  | succ k ih =>
      obtain ⟨inner, outer⟩ := n
      cases outer with
      | nil => cases hn
      | cons f outer =>
          have htakes := ih (n := ⟨f.push (.group inner.body), outer⟩) (by simpa using hn)
          rw [List.replicate_succ, List.flatMap_cons]
          exact Nest.takes_append (Nest.takes_closeGroup (by simp)) htakes

theorem outer_fragmentsFrom {b : Braces} {n : Nest} (hn : n.outer.length = b.openGroups)
    (es : List Element) : ((fragmentsFrom b es).foldl Nest.after n).outer = [] := by
  induction es generalizing b n with
  | nil => exact outer_closing hn
  | cons e es ih => exact ih (length_outer_after hn e)

/-- The fragments of a pattern are read back one by one; the invariant is that as many groups are
    open as the braces count. -/
theorem takes_fragmentsFrom {es : List Element} (hes : ∀ e ∈ es, e.IsBracketFree) {b : Braces}
    {n : Nest} (hn : n.outer.length = b.openGroups) :
    n.Takes ((fragmentsFrom b es).flatMap Fragment.text)
      ((fragmentsFrom b es).foldl Nest.after n) := by
  induction es generalizing b n with
  | nil => exact takes_closing hn
  | cons e es ih =>
      -- a closing fragment needs an open group, which the count of the braces promises
      have he : e.IsBracketFree := hes e List.mem_cons_self
      have hes' : ∀ e' ∈ es, e'.IsBracketFree := fun e' he' => hes e' (List.mem_cons_of_mem _ he')
      have htakes := ih hes' (length_outer_after hn e)
      rw [fragmentsFrom, List.flatMap_cons, List.foldl_cons]
      exact Nest.takes_append (Nest.takes_fragment (admits_fragment hn he)) htakes

theorem outer_anchored (pattern : List Char) : (anchored pattern).outer = [] := by
  unfold anchored
  split <;> rfl

theorem length_outer_anchored (pattern : List Char) :
    (anchored pattern).outer.length = Braces.none.openGroups := by
  rw [outer_anchored]
  rfl

/-- The text of a pattern without unescaped brackets is read back as its expression. -/
theorem ofChars_regexChars {pattern : List Char} (h : '[' ∉ unescaped pattern) :
    Regex.ofChars (regexChars pattern) = .ok (expression pattern) := by
  have hopen := length_outer_anchored pattern
  have hbody := takes_fragmentsFrom (fun e he => isBracketFree_of_mem h he) hopen
  obtain ⟨r, hr, hholds⟩ := Nest.takes_append (Nest.takes_append (takes_anchors pattern) hbody)
    (Nest.takes_finish _) Regex.Reader.start Nest.holds_start
  have htext : regexChars pattern = ('^' :: if pattern.head? = some '.' then [] else guardText) ++
      (fragmentsFrom .none (elements pattern)).flatMap Fragment.text ++ ['\\', 'Z'] := rfl
  rw [Regex.ofChars, htext, hr]
  exact hholds.finish (outer_fragmentsFrom hopen _)

/-- The matcher of a pattern, with the expression that is put together from its fragments. -/
def compiled (pattern : String) : Matcher :=
  ⟨pattern, regexText pattern, expression pattern.toList⟩

theorem ofPattern_of_bracketFree {pattern : String} (h : '[' ∉ unescaped pattern.toList) :
    Matcher.ofPattern pattern = .ok (compiled pattern) := by
  have hread : Regex.ofText (regexText pattern) = .ok (expression pattern.toList) := by
    rw [Regex.ofText, regexText, String.toList_ofList, ofChars_regexChars h]
  rw [Matcher.ofPattern, hread]
  rfl

end DirGlob.Pattern
