import DirGlob.Proofs.Pattern.Escape
import DirGlob.Proofs.Pattern.Language

set_option autoImplicit false

/-! # Expanding a pattern element by element

The expansion of a pattern, read off its elements: one step for each element. A pattern that
continues another one goes on where that one has stopped, which is what the equation of the two
readings (`expandFrom_eq`) is for. -/

namespace DirGlob.Pattern

/-- How far a pattern has been expanded: the opening braces less the closing ones, the innermost
    group and the groups around it. -/
structure Expansion where
  depth : Int
  choice : Choice
  outer : List Choice
deriving Repr, DecidableEq

namespace Expansion

/-- The expansion of the empty pattern. -/
def start : Expansion := ⟨0, .opened, []⟩

/-- Goes on with an atom. -/
def push (x : Expansion) (a : Atom) : Expansion := { x with choice := x.choice.push a }

/-- Goes on with an element. -/
def step (x : Expansion) : Element → Expansion
  | .escaped c => x.push (.literal c)
  | .separator dotted => x.push (.separator (!dotted))
  | .plain '*' => x.push .run
  | .plain '?' => x.push .one
  | .plain '{' => ⟨x.depth + 1, .opened, x.choice :: x.outer⟩
  | .plain '}' =>
    match x.outer with
    | [] => ⟨x.depth - 1, x.choice.push (.literal '}'), []⟩
    | c :: outer => ⟨x.depth - 1, c.append x.choice.words, outer⟩
  | .plain c =>
    if c = ',' ∧ x.depth > 0 then { x with choice := x.choice.next } else x.push (.literal c)

theorem step_plain (x : Expansion) {c : Char} (hstar : c ≠ '*') (hone : c ≠ '?')
    (hopen : c ≠ '{') (hclose : c ≠ '}') :
    x.step (.plain c) =
      if c = ',' ∧ x.depth > 0 then { x with choice := x.choice.next }
      else x.push (.literal c) := by
  unfold step
  split <;> simp_all

theorem step_comma (x : Expansion) (h : x.depth > 0) :
    x.step (.plain ',') = { x with choice := x.choice.next } := by
  rw [step_plain x (by decide) (by decide) (by decide) (by decide), if_pos ⟨rfl, h⟩]

/-- The words of a pattern that ends here. -/
def words (x : Expansion) : List Word := closeAll x.choice x.outer

end Expansion

/-- Expanding a pattern is going on with its elements one by one. -/
theorem expandFrom_eq (depth : Int) (choice : Choice) (outer : List Choice) (p : List Char) :
    expandFrom depth choice outer p =
      ((elements p).foldl Expansion.step ⟨depth, choice, outer⟩).words := by
  induction p using escapeInduction generalizing depth choice outer with
  | nil => rfl
  | lone => rfl
  | escape c cs ih =>
      rw [expandFrom, ih]
      rfl
  | cons c cs hc ih =>
      rw [elements_cons hc, expandFrom.eq_def]
      split
      · next h => cases h
      · next h => exact absurd (List.cons.inj h).1 hc
      · next h => exact absurd (List.cons.inj h).1 hc
      · next h =>
          cases h
          rw [ih, if_pos rfl, List.foldl_cons]
          simp only [Expansion.step, Expansion.push, decide_not]
      · next h =>
          cases h
          rw [ih]
          rfl
      · next h =>
          cases h
          rw [ih]
          rfl
      · next h =>
          cases h
          rw [ih]
          rfl
      · next h =>
          cases h
          cases outer with
          | nil => exact ih _ _ _
          | cons o outer => exact ih _ _ _
      · next h =>
          cases h
          by_cases hd : depth > 0
          · rw [if_pos hd, ih]
            simp [Expansion.step, hd]
          · rw [if_neg hd, ih]
            simp [Expansion.step, Expansion.push, hd]
      · next hslash hstar hone hopen hclose hcomma h =>
          cases h
          rw [ih, if_neg hslash, List.foldl_cons]
          rw [Expansion.step_plain _ hstar hone hopen hclose, if_neg (fun h => hcomma h.1)]
          rfl

end DirGlob.Pattern
