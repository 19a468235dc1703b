import DirGlob.Proofs.Pattern.WellFormed

set_option autoImplicit false

/-! # Brackets that nothing closes

A bracket is no part of the pattern language, and a pattern with a bracket that it does not close
is malformed. But the bracket is passed on to the expression as it is, and there a closing one may
follow: each wildcard is written as a set, and the end of that closes whatever set it stands in. So
a set stays open exactly if the last of the brackets and wildcards of the pattern is a bracket
(`isInside_bodyTokens_iff`). Where a wildcard closes it, the pattern is rejected only if what the
set has taken makes a range that descends, or is missed as a parenthesis (`ofPattern_error_iff`). -/

namespace DirGlob.Pattern

open Regex (Spot Token tokens)

/-- The pattern has an unescaped bracket, and no closing one behind it. -/
def HasOpenBracket (pattern : List Char) : Prop :=
  ∃ before behind, pattern = before ++ '[' :: behind ∧ endsInEscape before = false ∧ ']' ∉ behind

/-- An opening bracket or a wildcard. -/
def isSetMark (c : Char) : Bool := c = '[' ∨ c = '*' ∨ c = '?'

/-- The last unescaped bracket or wildcard of the pattern is a bracket. -/
def EndsInBracket (pattern : List Char) : Prop :=
  ((unescaped pattern).filter isSetMark).getLast? = some '['

/-- A range of a set in the pattern's expression descends. -/
def HasDescendingRange (pattern : List Char) : Prop :=
  ∃ range ∈ Regex.ranges .outside (bodyTokens pattern), range.2 < range.1

/-- The parentheses outside of the sets of the pattern's expression pair up. -/
def HasPairedParentheses (pattern : List Char) : Prop :=
  (Regex.outsideSets .outside (bodyTokens pattern)).foldlM Regex.parenthesis 0 = some 0

instance (pattern : List Char) : Decidable (EndsInBracket pattern) :=
  inferInstanceAs (Decidable (_ = _))

instance (pattern : List Char) : Decidable (HasDescendingRange pattern) :=
  List.decidableBEx _ _

instance (pattern : List Char) : Decidable (HasPairedParentheses pattern) :=
  inferInstanceAs (Decidable (_ = _))

/-! ## Sets that are open -/

/-- Whether a set is open behind an unescaped character of a pattern, if none but a wildcard can
    close it. -/
def staysInside (inside : Bool) (c : Char) : Bool :=
  if c = '[' then true else if c = '*' ∨ c = '?' then false else inside

theorem getD_getLast?_cons (c : Char) (cs : List Char) (inside : Bool) :
    ((c :: cs).getLast?.map (· == '[')).getD inside =
      (cs.getLast?.map (· == '[')).getD (c == '[') := by
  rw [List.getLast?_cons]
  cases cs.getLast? <;> rfl

/-- The last bracket or wildcard decides. -/
theorem foldl_staysInside (inside : Bool) (cs : List Char) :
    cs.foldl staysInside inside = ((cs.filter isSetMark).getLast?.map (· == '[')).getD inside := by
  induction cs generalizing inside with
  | nil => rfl
  | cons c cs ih =>
      rw [List.foldl_cons, ih]
      by_cases hmark : isSetMark c = true
      · have hstays : staysInside inside c = (c == '[') := by
          unfold staysInside
          unfold isSetMark at hmark
          split <;> simp_all
        rw [List.filter_cons_of_pos hmark, getD_getLast?_cons, hstays]
      · have hstays : staysInside inside c = inside := by
          unfold staysInside
          simp only [isSetMark, decide_eq_true_eq, not_or] at hmark
          simp [hmark]
        rw [List.filter_cons_of_neg hmark, hstays]

theorem isInside_foldl {ts : List Token}
    (hts : ∀ t ∈ ts, t.isPlain '[' = false ∧ t.isPlain ']' = false) (s : Spot) :
    (ts.foldl Spot.after s).isInside = s.isInside := by
  induction ts generalizing s with
  | nil => rfl
  | cons t ts ih =>
      rw [List.forall_mem_cons] at hts
      rw [List.foldl_cons, ih hts.2, s.isInside_after_eq hts.1.1 hts.1.2]

theorem isPlain_of_mem_tokens {c : Char} (h : c ∉ ['\\', '[', ']']) :
    ∀ t ∈ tokens [c], t.isPlain '[' = false ∧ t.isPlain ']' = false := by
  simp only [List.mem_cons, List.not_mem_nil, or_false, not_or] at h
  rw [Regex.tokens_cons h.1]
  simp [tokens, Token.isPlain, h]

/-- Elements other than brackets and wildcards neither open nor close a set. -/
theorem isPlain_of_mem_fragment (b : Braces) {e : Element}
    (he : ∀ c ∈ ['\\', '[', ']', '*', '?'], e ≠ .plain c) :
    ∀ t ∈ tokens (b.fragment e).text, t.isPlain '[' = false ∧ t.isPlain ']' = false := by
  have hgives := b.gives_fragment e
  generalize b.fragment e = f at hgives
  cases hgives with
  | kept h => simp [Fragment.text, tokens, Token.isPlain]
  | @bare c h =>
      refine isPlain_of_mem_tokens ?_
      intro hmem
      have hall : ['\\', '[', ']'].all keepsBackslash = true := by decide
      rw [List.all_eq_true.1 hall c hmem] at h
      cases h
  | separator dotted => cases dotted <;> decide
  | run => exact absurd rfl (he '*' (by decide))
  | one => exact absurd rfl (he '?' (by decide))
  | special hc h => simp [Fragment.text, tokens, Token.isPlain]
  | @char c hc h =>
      refine isPlain_of_mem_tokens ?_
      intro hmem
      exact he c (List.mem_append_left ['*', '?'] hmem) rfl
  | _ => decide

/-- Whether a set is open behind an element, if that is no closing bracket. -/
theorem isInside_foldl_fragment (b : Braces) {e : Element} (hb : e ≠ .plain '\\')
    (hclose : e ≠ .plain ']') (s : Spot) :
    ((tokens (b.fragment e).text).foldl Spot.after s).isInside = staysInside s.isInside e.mark := by
  by_cases hbracket : e = .plain '['
  · subst hbracket
    exact s.isInside_after_bracket
  -- the closing bracket of a wildcard closes its own set or the one that it stands in
  by_cases hrun : e = .plain '*'
  · subst hrun
    cases s <;> rfl
  by_cases hone : e = .plain '?'
  · subst hone
    cases s <;> rfl
  · have hneutral : ∀ c ∈ ['\\', '[', ']', '*', '?'], e ≠ .plain c := by
      simp [hb, hclose, hbracket, hrun, hone]
    have hmark : e.mark ≠ '[' ∧ e.mark ≠ '*' ∧ e.mark ≠ '?' := by
      simp [Element.mark_eq_iff, hbracket, hrun, hone]
    rw [isInside_foldl (isPlain_of_mem_fragment b hneutral)]
    simp [staysInside, hmark]

theorem isInside_foldl_fragmentsFrom {es : List Element}
    (hes : ∀ e ∈ es, e ≠ .plain '\\' ∧ e ≠ .plain ']') (b : Braces) (s : Spot) :
    ((fragmentTokens (fragmentsFrom b es)).foldl Spot.after s).isInside =
      (es.map Element.mark).foldl staysInside s.isInside := by
  induction es generalizing b s with
  | nil =>
      refine isInside_foldl ?_ s
      intro t ht
      obtain ⟨f, hf, ht⟩ := List.mem_flatMap.1 ht
      rw [List.eq_of_mem_replicate hf] at ht
      cases List.mem_singleton.1 ht
      decide
  | cons e es ih =>
      rw [List.forall_mem_cons] at hes
      rw [fragmentsFrom, fragmentTokens, List.flatMap_cons, List.foldl_append, ← fragmentTokens,
        ih hes.2, isInside_foldl_fragment b hes.1.1 hes.1.2, List.map_cons, List.foldl_cons]

/-- What the fragments of a part of a pattern are does not depend on what follows it. -/
theorem exists_fragmentsFrom_append (b : Braces) (es : List Element) : ∃ fs b', ∀ rest,
    fragmentsFrom b (es ++ rest) = fs ++ fragmentsFrom b' rest := by
  induction es generalizing b with
  | nil => exact ⟨[], b, fun _ => rfl⟩
  | cons e es ih =>
      obtain ⟨fs, b', h⟩ := ih (b.after e)
      refine ⟨b.fragment e :: fs, b', fun rest => ?_⟩
      rw [List.cons_append, fragmentsFrom, h, List.cons_append]

/-- **A set stays open exactly if no wildcard comes after the last bracket.** -/
theorem isInside_bodyTokens_iff {pattern : List Char} (h : HasOpenBracket pattern) :
    ((bodyTokens pattern).foldl Spot.after .outside).isInside = true ↔ EndsInBracket pattern := by
  obtain ⟨before, behind, rfl, hescape, hclose⟩ := h
  have helements :
      elements (before ++ '[' :: behind) = elements before ++ .plain '[' :: elements behind := by
    rw [elements_append hescape (by simp), elements_cons (by decide)]
    rfl
  have hbehind : ∀ e ∈ elements behind, e ≠ .plain '\\' ∧ e ≠ .plain ']' := by
    intro e he
    refine ⟨?_, ?_⟩ <;> rintro rfl
    · exact (mem_unescaped_of_plain he).2.1 rfl
    · exact hclose (mem_of_mem_unescaped (mem_unescaped_of_plain he).1)
  obtain ⟨fs, b, hfs⟩ := exists_fragmentsFrom_append .none (elements before)
  have hbody : bodyTokens (before ++ '[' :: behind) = fragmentTokens fs ++
      ⟨false, '['⟩ :: fragmentTokens (fragmentsFrom b (elements behind)) := by
    rw [bodyTokens, fragments, helements, hfs, fragmentTokens, List.flatMap_append]
    rfl
  rw [hbody, List.foldl_append, List.foldl_cons, isInside_foldl_fragmentsFrom hbehind,
    Spot.isInside_after_bracket, map_mark_elements, foldl_staysInside]
  rw [EndsInBracket, unescaped_append hescape, unescaped_cons (by decide), List.filter_append,
    List.filter_cons]
  generalize (unescaped behind).filter isSetMark = marks
  cases hlast : marks.getLast? <;>
    simp [isSetMark, List.getLast?_append, List.getLast?_cons, hlast]

theorem exists_error_iff {ε α : Type} {x : Except ε α} :
    (∃ e, x = .error e) ↔ ¬∃ a, x = .ok a := by
  cases x <;> simp

/-- What keeps a pattern with an open bracket from compiling: the set stays open, a range descends,
    or a set has taken a parenthesis that the rest of the expression misses. -/
theorem ofPattern_error_iff {pattern : String} (h : HasOpenBracket pattern.toList) :
    (∃ e, Matcher.ofPattern pattern = .error e) ↔
      EndsInBracket pattern.toList ∨ HasDescendingRange pattern.toList ∨
        ¬HasPairedParentheses pattern.toList := by
  have hranges : (∀ range ∈ Regex.ranges .outside (bodyTokens pattern.toList),
      range.1 ≤ range.2) ↔ ¬HasDescendingRange pattern.toList := by
    simp only [HasDescendingRange, not_exists, not_and, Char.not_lt]
  have hpaired : (Regex.outsideSets .outside (bodyTokens pattern.toList)).foldlM
      Regex.parenthesis 0 = some 0 ↔ HasPairedParentheses pattern.toList := Iff.rfl
  rw [exists_error_iff, exists_ofPattern_iff, hranges, hpaired, ← isInside_bodyTokens_iff h,
    ← Bool.not_eq_true, Classical.not_and_iff_not_or_not, Classical.not_and_iff_not_or_not,
    Classical.not_not, Classical.not_not]

/-- A star does not help where the range before it ends in its bracket and descends, or where the
    parenthesis of the brace before it has become a member of the set. -/
example : ¬EndsInBracket "[z-*".toList ∧ HasDescendingRange "[z-*".toList ∧
    ¬EndsInBracket "[\x7b*".toList ∧ ¬HasPairedParentheses "[\x7b*".toList := by decide

end DirGlob.Pattern
