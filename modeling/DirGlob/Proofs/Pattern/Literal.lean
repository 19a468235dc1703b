import DirGlob.Proofs.Pattern.Matching

set_option autoImplicit false

/-! # Patterns that stand for one text

A text without a backslash, a wildcard, an opening brace and an opening bracket is a pattern for
itself alone: no group is ever open in it, so a closing brace and a comma are literal.

Any other text has a pattern as well, the text with a backslash before each of its characters. But
whether a name may start with a dot is decided by the first character of the pattern, which is a
backslash then. So the pattern of a text with a dot in front matches nothing
(`exists_ofPattern_withAllEscaped`). -/

namespace DirGlob.Pattern

/-- The characters that make something else of a pattern than a plain text. -/
def activeChars : List Char := ['\\', '*', '?', '{', '[']

/-! ## Words -/

/-- The word that spells a text. -/
def literals (s : List Char) : Word := s.map .literal

theorem reads_literals_iff (s t : List Char) : Word.Reads (literals s) t [] ↔ t = s := by
  induction s generalizing t with
  | nil => exact Iff.rfl
  | cons c s ih =>
      simp only [literals, List.map_cons, Word.Reads, Atom.Reads]
      constructor
      · rintro ⟨u, rfl, hu⟩
        rw [(ih u).1 hu]
      · rintro rfl
        exact ⟨s, rfl, (ih s).2 rfl⟩

theorem push_literal (w : Word) (c : Char) :
    Choice.push ⟨[], [w]⟩ (.literal c) = ⟨[], [w ++ [.literal c]]⟩ := rfl

/-! ## Plain texts -/

/-- A plain text expands to the one word that spells it. Each closing brace leaves the depth below
    zero, so that the commas behind it stay literal. -/
theorem expandFrom_of_plain {s : List Char} (hactive : ∀ c ∈ s, c ∉ activeChars) (hsep : '/' ∉ s)
    {depth : Int} (hdepth : depth ≤ 0) (w : Word) :
    expandFrom depth ⟨[], [w]⟩ [] s = [w ++ literals s] := by
  induction s generalizing depth w with
  | nil => simp [expandFrom, closeAll, Choice.words, literals]
  | cons c s ih =>
      have hc : c ∉ activeChars := hactive c List.mem_cons_self
      have hliteral {depth : Int} (hdepth : depth ≤ 0) :
          expandFrom depth (Choice.push ⟨[], [w]⟩ (.literal c)) [] s =
            [w ++ literals (c :: s)] := by
        rw [push_literal, ih (fun d hd => hactive d (List.mem_cons_of_mem _ hd))
          (fun hmem => hsep (List.mem_cons_of_mem _ hmem)) hdepth]
        simp [literals]
      rw [expandFrom.eq_def]
      split
      · next h => cases h
      · next h => exact absurd ((List.cons.inj h).1 ▸ hc) (by decide)
      · next h => exact absurd ((List.cons.inj h).1 ▸ hc) (by decide)
      · next h => exact absurd ((List.cons.inj h).1 ▸ List.mem_cons_self) hsep
      · next h => exact absurd ((List.cons.inj h).1 ▸ hc) (by decide)
      · next h => exact absurd ((List.cons.inj h).1 ▸ hc) (by decide)
      · next h => exact absurd ((List.cons.inj h).1 ▸ hc) (by decide)
      · next h =>
        cases h
        exact hliteral (by omega)
      · next h =>
        cases h
        rw [if_neg (by omega)]
        exact hliteral hdepth
      · next h =>
        cases h
        exact hliteral hdepth

/-- A plain text names itself and nothing else. -/
theorem names_plain_iff {s : List Char} (hactive : ∀ c ∈ s, c ∉ activeChars) (hsep : '/' ∉ s)
    (name : List Char) : Names s name ↔ name = s := by
  have hexpand : expand s = [literals s] := expandFrom_of_plain hactive hsep (Int.le_refl 0) []
  rw [Names, hexpand]
  simp only [List.mem_singleton, exists_eq_left, reads_literals_iff]
  constructor
  · exact And.right
  · rintro rfl
    exact ⟨id, rfl⟩

/-- **A plain text compiles, and matches itself alone.** -/
theorem exists_ofPattern_of_plain {pattern : String}
    (hactive : ∀ c ∈ pattern.toList, c ∉ activeChars) (hsep : '/' ∉ pattern.toList) :
    ∃ m, Matcher.ofPattern pattern = .ok m ∧
      ∀ name : String, m.matches? name = true ↔ name = pattern := by
  have hbracket : '[' ∉ unescaped pattern.toList := fun h =>
    hactive '[' (mem_of_mem_unescaped h) (by decide)
  refine ⟨_, ofPattern_of_bracketFree hbracket, fun name => ?_⟩
  rw [matches?_compiled_iff, names_plain_iff hactive hsep, String.toList_inj]

/-! ## Escaped texts -/

/-- The text with a backslash before each of its characters. -/
def escapeAll (s : List Char) : List Char := s.flatMap fun c => ['\\', c]

/-- The pattern with a backslash before each of its characters. -/
def withAllEscaped (pattern : String) : String := String.ofList (escapeAll pattern.toList)

theorem escapeAll_cons (c : Char) (s : List Char) :
    escapeAll (c :: s) = '\\' :: c :: escapeAll s := rfl

theorem not_mem_unescaped_escapeAll {c : Char} (hc : c ≠ '\\') (s : List Char) :
    c ∉ unescaped (escapeAll s) := by
  induction s with
  | nil => simp [escapeAll, unescaped]
  | cons d s ih => simp [escapeAll_cons, unescaped, hc, ih]

theorem head?_escapeAll (s : List Char) : (escapeAll s).head? ≠ some '.' := by
  cases s with
  | nil => simp [escapeAll]
  | cons c s => simp [escapeAll_cons]

/-- An escaped text expands to the one word that spells it, whatever its characters are. -/
theorem expandFrom_escapeAll (depth : Int) (w : Word) (s : List Char) :
    expandFrom depth ⟨[], [w]⟩ [] (escapeAll s) = [w ++ literals s] := by
  induction s generalizing w with
  | nil => simp [escapeAll, expandFrom, closeAll, Choice.words, literals]
  | cons c s ih =>
      rw [escapeAll_cons, expandFrom, push_literal, ih]
      simp [literals]

/-- An escaped text names the text itself and nothing else, unless a dot comes first. -/
theorem names_escapeAll_iff (s name : List Char) :
    Names (escapeAll s) name ↔ name = s ∧ s.head? ≠ some '.' := by
  have hexpand : expand (escapeAll s) = [literals s] := expandFrom_escapeAll 0 [] s
  rw [Names, hexpand]
  simp only [List.mem_singleton, exists_eq_left, reads_literals_iff]
  constructor
  · intro h
    obtain ⟨hdot, rfl⟩ := h
    exact ⟨rfl, hdot (head?_escapeAll name)⟩
  · intro h
    obtain ⟨rfl, hdot⟩ := h
    exact ⟨fun _ => hdot, rfl⟩

/-- **An escaped text compiles, and matches the text alone.** If the text starts with a dot, then it
    matches nothing, since the pattern does not. -/
theorem exists_ofPattern_withAllEscaped (s : String) :
    ∃ m, Matcher.ofPattern (withAllEscaped s) = .ok m ∧
      ∀ name : String, m.matches? name = true ↔ name = s ∧ s.toList.head? ≠ some '.' := by
  have htext : (withAllEscaped s).toList = escapeAll s.toList := String.toList_ofList
  have hbracket : '[' ∉ unescaped (withAllEscaped s).toList := by
    rw [htext]
    exact not_mem_unescaped_escapeAll (by decide) _
  refine ⟨_, ofPattern_of_bracketFree hbracket, fun name => ?_⟩
  rw [matches?_compiled_iff, htext, names_escapeAll_iff, String.toList_inj]

/-- The escaped dot does not match a dot. -/
theorem not_forall_matches_withAllEscaped :
    ¬∀ s : String, ∃ m, Matcher.ofPattern (withAllEscaped s) = .ok m ∧
      ∀ name : String, m.matches? name = true ↔ name = s := by
  intro h
  obtain ⟨m, hm, hmatches⟩ := h "."
  obtain ⟨m', hm', hdot⟩ :
      ∃ m', Matcher.ofPattern (withAllEscaped ".") = .ok m' ∧ m'.matches? "." = false :=
    ⟨_, rfl, by decide⟩
  cases hm.symm.trans hm'
  have hself : m.matches? "." = true := (hmatches ".").2 rfl
  rw [hdot] at hself
  cases hself

end DirGlob.Pattern
