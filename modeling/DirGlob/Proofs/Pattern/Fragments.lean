import DirGlob.Pattern.Expression

set_option autoImplicit false

/-! # What an element gives

The fragment of an element depends on the element, on the braces before it and on two tables of
characters. `Braces.Gives` names the cases, so that a proof about fragments goes through them by
name (`Braces.gives_fragment`). -/

namespace DirGlob.Pattern

namespace Braces

/-- Behind these braces the character stands for itself: it is no wildcard and no brace, and no
    comma that divides alternatives. -/
structure IsLiteral (b : Braces) (c : Char) : Prop where
  star : c ≠ '*'
  one : c ≠ '?'
  opening : c ≠ '{'
  closing : c ≠ '}'
  comma : ¬(c = ',' ∧ b.depth > 0)

/-- The fragment that an element gives behind these braces, case by case. -/
inductive Gives (b : Braces) : Element → Fragment → Prop
  | kept {c : Char} (h : keepsBackslash c = true) : Gives b (.escaped c) (.escaped c)
  | bare {c : Char} (h : keepsBackslash c = false) : Gives b (.escaped c) (.char c)
  | separator (dotted : Bool) : Gives b (.separator dotted) (.separator (!dotted))
  | run : Gives b (.plain '*') .run
  | one : Gives b (.plain '?') .one
  | openGroup : Gives b (.plain '{') .openGroup
  | closeGroup (h : b.openGroups > 0) : Gives b (.plain '}') .closeGroup
  | strayClose (h : b.openGroups = 0) : Gives b (.plain '}') .strayClose
  | bar (h : b.depth > 0) : Gives b (.plain ',') .bar
  | special {c : Char} (hc : b.IsLiteral c) (h : isSpecial c = true) :
      Gives b (.plain c) (.escaped c)
  | char {c : Char} (hc : b.IsLiteral c) (h : isSpecial c = false) : Gives b (.plain c) (.char c)

theorem gives_fragment (b : Braces) (e : Element) : b.Gives e (b.fragment e) := by
  unfold fragment
  split
  · next c =>
      by_cases h : keepsBackslash c = true
      · rw [if_pos h]
        exact .kept h
      · rw [if_neg h]
        exact .bare (Bool.not_eq_true _ ▸ h)
  · exact .separator _
  · exact .run
  · exact .one
  · exact .openGroup
  · by_cases h : b.openGroups > 0
    · rw [if_pos h]
      exact .closeGroup h
    · rw [if_neg h]
      exact .strayClose (Nat.eq_zero_of_not_pos h)
  · next c hstar hone hopen hclose =>
      by_cases hbar : c = ',' ∧ b.depth > 0
      · rw [if_pos hbar, hbar.1]
        exact .bar hbar.2
      · have hc : b.IsLiteral c := ⟨hstar, hone, hopen, hclose, hbar⟩
        rw [if_neg hbar]
        by_cases h : isSpecial c = true
        · rw [if_pos h]
          exact .special hc h
        · rw [if_neg h]
          exact .char hc (Bool.not_eq_true _ ▸ h)

theorem IsLiteral.after_eq {b : Braces} {c : Char} (h : b.IsLiteral c) :
    b.after (.plain c) = b := by
  unfold after
  split
  · next he => exact absurd (Element.plain.inj he) h.opening
  · next he => exact absurd (Element.plain.inj he) h.closing
  · rfl

theorem fragment_eq_openGroup_iff (b : Braces) (e : Element) :
    b.fragment e = .openGroup ↔ e = .plain '{' := by
  have hgives := b.gives_fragment e
  generalize b.fragment e = f at hgives
  cases hgives with
  | special hc h => simp [hc.opening]
  | char hc h => simp [hc.opening]
  | _ => simp

theorem fragment_eq_bar_iff (b : Braces) (e : Element) :
    b.fragment e = .bar ↔ e = .plain ',' ∧ b.depth > 0 := by
  have hgives := b.gives_fragment e
  generalize b.fragment e = f at hgives
  cases hgives with
  | bar h => simp [h]
  | special hc h => simpa using hc.comma
  | char hc h => simpa using hc.comma
  | _ => simp

end Braces

end DirGlob.Pattern
