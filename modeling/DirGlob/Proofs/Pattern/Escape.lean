import DirGlob.Pattern.Expression

set_option autoImplicit false

/-! # Escaped and unescaped characters

A backslash takes the character after it out of the pattern language. Reading a text from left to
right, `unescaped` keeps the characters that no backslash has taken, and `endsInEscape` says that
the text stops behind a backslash that still has to take one. What the elements of a pattern are is
stated in these terms: which of them are plain, and how the elements of a text go together with
those of the text that follows it. -/

namespace DirGlob.Pattern

/-! ## Unescaped characters -/

/-- The characters of a text that are not taken by a backslash before them. -/
def unescaped : List Char → List Char
  | [] => []
  | '\\' :: _ :: cs => '\\' :: unescaped cs
  | c :: cs => c :: unescaped cs

/-- The text ends with a backslash that takes whatever follows the text. -/
def endsInEscape : List Char → Bool
  | [] => false
  | '\\' :: [] => true
  | '\\' :: _ :: cs => endsInEscape cs
  | _ :: cs => endsInEscape cs

/-- Induction on a text by what its backslashes take. -/
@[elab_as_elim]
theorem escapeInduction {motive : List Char → Prop} (nil : motive []) (lone : motive ['\\'])
    (escape : ∀ c cs, motive cs → motive ('\\' :: c :: cs))
    (cons : ∀ c cs, c ≠ '\\' → motive cs → motive (c :: cs)) (p : List Char) : motive p := by
  fun_induction endsInEscape p with
  | case1 => exact nil
  | case2 => exact lone
  | case3 c cs ih => exact escape c cs ih
  | case4 c cs hlone hescape ih =>
      refine cons c cs ?_ ih
      intro hc
      cases cs with
      | nil => exact hlone hc rfl
      | cons d ds => exact hescape d ds hc rfl

theorem unescaped_cons {c : Char} (h : c ≠ '\\') (cs : List Char) :
    unescaped (c :: cs) = c :: unescaped cs := by
  cases cs <;> simp [unescaped, h]

theorem endsInEscape_cons {c : Char} (h : c ≠ '\\') (cs : List Char) :
    endsInEscape (c :: cs) = endsInEscape cs := by
  cases cs <;> simp [endsInEscape, h]

theorem unescaped_append {p : List Char} (h : endsInEscape p = false) (r : List Char) :
    unescaped (p ++ r) = unescaped p ++ unescaped r := by
  induction p using escapeInduction with
  | nil => rfl
  | lone => simp [endsInEscape] at h
  | escape c cs ih =>
      rw [endsInEscape] at h
      simp only [List.cons_append, unescaped, ih h]
  | cons c cs hc ih =>
      rw [endsInEscape_cons hc] at h
      rw [List.cons_append, unescaped_cons hc, unescaped_cons hc, ih h, List.cons_append]

theorem endsInEscape_append {p : List Char} (h : endsInEscape p = false) (r : List Char) :
    endsInEscape (p ++ r) = endsInEscape r := by
  induction p using escapeInduction with
  | nil => rfl
  | lone => simp [endsInEscape] at h
  | escape c cs ih =>
      rw [endsInEscape] at h
      simp only [List.cons_append, endsInEscape, ih h]
  | cons c cs hc ih =>
      rw [endsInEscape_cons hc] at h
      rw [List.cons_append, endsInEscape_cons hc, ih h]

theorem mem_of_mem_unescaped {c : Char} {p : List Char} (h : c ∈ unescaped p) : c ∈ p := by
  induction p using escapeInduction with
  | nil => exact h
  | lone => exact h
  | escape d cs ih =>
      rw [unescaped, List.mem_cons] at h
      rcases h with rfl | h
      · exact List.mem_cons_self
      · exact List.mem_cons_of_mem _ (List.mem_cons_of_mem _ (ih h))
  | cons d cs hd ih =>
      rw [unescaped_cons hd, List.mem_cons] at h
      rcases h with rfl | h
      · exact List.mem_cons_self
      · exact List.mem_cons_of_mem _ (ih h)

/-! ## Elements -/

theorem elements_cons {c : Char} (h : c ≠ '\\') (cs : List Char) :
    elements (c :: cs) =
      (if c = '/' then .separator (cs.head? = some '.') else .plain c) :: elements cs := by
  cases cs <;> simp [elements, h]

/-- A plain element is an unescaped character and is neither a backslash nor a separator. -/
theorem mem_unescaped_of_plain {c : Char} {p : List Char} (h : .plain c ∈ elements p) :
    c ∈ unescaped p ∧ c ≠ '\\' ∧ c ≠ '/' := by
  induction p using escapeInduction with
  | nil => simp [elements] at h
  | lone => simp [elements] at h
  | escape d cs ih =>
      simp only [elements, List.mem_cons, reduceCtorEq, false_or] at h
      obtain ⟨hmem, hne⟩ := ih h
      exact ⟨List.mem_cons_of_mem _ hmem, hne⟩
  | cons d cs hd ih =>
      rw [elements_cons hd, List.mem_cons] at h
      rw [unescaped_cons hd]
      rcases h with h | h
      · by_cases hs : d = '/'
        · rw [if_pos hs] at h
          cases h
        · rw [if_neg hs] at h
          cases h
          exact ⟨List.mem_cons_self, hd, hs⟩
      · obtain ⟨hmem, hne⟩ := ih h
        exact ⟨List.mem_cons_of_mem _ hmem, hne⟩

/-- The unescaped character that an element begins with. -/
def Element.mark : Element → Char
  | escaped _ => '\\'
  | separator _ => '/'
  | plain c => c

theorem Element.mark_eq_iff {c : Char} (hb : c ≠ '\\') (hs : c ≠ '/') (e : Element) :
    e.mark = c ↔ e = .plain c := by
  cases e with
  | escaped d => simp [mark, hb.symm]
  | separator dotted => simp [mark, hs.symm]
  | plain d => simp [mark]

/-- Each element begins with one unescaped character. -/
theorem map_mark_elements (p : List Char) : (elements p).map Element.mark = unescaped p := by
  induction p using escapeInduction with
  | nil => rfl
  | lone => rfl
  | escape c cs ih => simp only [elements, unescaped, List.map_cons, Element.mark, ih]
  | cons c cs hc ih =>
      rw [elements_cons hc, unescaped_cons hc, List.map_cons, ih]
      by_cases hs : c = '/'
      · rw [if_pos hs, hs]
        rfl
      · rw [if_neg hs]
        rfl

/-- Each character that has a meaning of its own occurs among the plain elements as often as it
    occurs unescaped. -/
theorem count_plain_elements {c : Char} (hb : c ≠ '\\') (hs : c ≠ '/') (p : List Char) :
    (elements p).count (.plain c) = (unescaped p).count c := by
  rw [← map_mark_elements]
  induction elements p with
  | nil => rfl
  | cons e es ih =>
      rw [List.map_cons, List.count_cons, List.count_cons, ih]
      simp only [beq_iff_eq, Element.mark_eq_iff hb hs]

/-- The elements of a text and of what follows it; a separator at the end of the text does not look
    beyond it unless a dot follows. -/
theorem elements_append {p r : List Char} (h : endsInEscape p = false)
    (hr : r.head? ≠ some '.') : elements (p ++ r) = elements p ++ elements r := by
  induction p using escapeInduction with
  | nil => rfl
  | lone => simp [endsInEscape] at h
  | escape c cs ih =>
      rw [endsInEscape] at h
      simp only [List.cons_append, elements, ih h]
  | cons c cs hc ih =>
      rw [endsInEscape_cons hc] at h
      have hhead : ((cs ++ r).head? = some '.') = (cs.head? = some '.') := by
        cases cs with
        | nil => simpa using hr
        | cons d ds => rfl
      rw [List.cons_append, elements_cons hc, elements_cons hc, ih h, List.cons_append]
      simp only [hhead]

end DirGlob.Pattern
