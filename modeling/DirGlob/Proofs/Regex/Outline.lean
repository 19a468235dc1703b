import DirGlob.Proofs.Pattern.Escape
import DirGlob.Regex.Reader

set_option autoImplicit false

/-! # Outlines of a text

Whether the text of an expression is well formed can be told without building the expression. An
outline keeps the *spot*, which says where in a character set a token stands, and the number of the
groups that are open. A token has no outline behind it if it ends a range that descends, or closes a
group where none is open.

The two ways to fail have nothing to do with each other: a text has an outline exactly if its ranges
ascend and the parentheses outside of its sets pair up (`Outline.foldlM_after_iff`). -/

namespace DirGlob.Regex

/-! ## Tokens -/

/-- The tokens of a text. -/
def tokens : List Char → List Token
  | '\\' :: c :: cs => ⟨true, c⟩ :: tokens cs
  | c :: cs => ⟨false, c⟩ :: tokens cs
  | [] => []

theorem tokens_cons {c : Char} (hb : c ≠ '\\') (cs : List Char) :
    tokens (c :: cs) = ⟨false, c⟩ :: tokens cs := by
  cases cs <;> simp [tokens, hb]

/-! ## Spots -/

/-- Where a token stands, as far as character sets go. -/
inductive Spot where
  | outside
  /-- Behind the opening bracket. -/
  | opening
  /-- Before the first member of a negated set. -/
  | first
  /-- Behind a member that may begin a range. -/
  | member (c : Char)
  /-- Behind a member and a dash. -/
  | dash (lo : Char)
  /-- Behind a range. -/
  | next
deriving Repr, DecidableEq

namespace Spot

/-- The spot behind a token. -/
def after (s : Spot) (t : Token) : Spot :=
  match s with
  | outside => if t.isPlain '[' then opening else outside
  | opening => if t.isPlain '^' then first else member t.char
  | first => member t.char
  | member c => if t.isPlain '-' then dash c else if t.isPlain ']' then outside else member t.char
  | dash _ => if t.isPlain ']' then outside else next
  | next => if t.isPlain ']' then outside else member t.char

/-- The range that ends with the token. -/
def range? (s : Spot) (t : Token) : Option (Char × Char) :=
  match s with
  | dash lo => if t.isPlain ']' then none else some (lo, t.char)
  | _ => none

/-- Whether a set is open. -/
def isInside (s : Spot) : Bool := s ≠ outside

theorem isInside_eq_false_iff {s : Spot} : s.isInside = false ↔ s = outside := by
  simp [isInside]

/-- Only a closing bracket leads out of a set. -/
theorem isInside_after {s : Spot} (hs : s.isInside = true) {t : Token}
    (ht : t.isPlain ']' = false) : (s.after t).isInside = true := by
  unfold after
  split
  · cases hs
  · split <;> rfl
  · rfl
  · split <;> simp [ht, isInside]
  · simp [ht, isInside]
  · simp [ht, isInside]

/-- Only brackets lead into a set and out of it. -/
theorem isInside_after_eq (s : Spot) {t : Token} (hopen : t.isPlain '[' = false)
    (hclose : t.isPlain ']' = false) : (s.after t).isInside = s.isInside := by
  cases hs : s.isInside with
  | true => exact isInside_after hs hclose
  | false =>
      rw [isInside_eq_false_iff.1 hs]
      simp [after, hopen, isInside]

/-- Behind a bracket there is a set, whether it opens one or is a member of one. -/
theorem isInside_after_bracket (s : Spot) : (s.after ⟨false, '['⟩).isInside = true := by
  cases hs : s.isInside with
  | true => exact isInside_after hs rfl
  | false =>
      rw [isInside_eq_false_iff.1 hs]
      rfl

end Spot

/-- How many parentheses are open behind a token, unless it closes one too many. -/
def parenthesis (count : Nat) (t : Token) : Option Nat :=
  if t.isPlain '(' then some (count + 1)
  else if t.isPlain ')' then (match count with | 0 => none | n + 1 => some n)
  else some count

/-! ## Outlines -/

/-- What has to be known of the text that has been read. -/
structure Outline where
  spot : Spot
  groups : Nat
deriving Repr, DecidableEq

namespace Outline

/-- The outline of the empty text. -/
def start : Outline := ⟨.outside, 0⟩

/-- The outline behind a token, unless the token is at fault. -/
def after (o : Outline) (t : Token) : Option Outline :=
  if (o.spot.range? t).any fun range => range.2 < range.1 then none
  else if o.spot = .outside then
    (parenthesis o.groups t).map fun groups => ⟨o.spot.after t, groups⟩
  else some ⟨o.spot.after t, o.groups⟩

end Outline

/-! ## What an outline comes to -/

/-- The ranges of the sets. -/
def ranges : Spot → List Token → List (Char × Char)
  | _, [] => []
  | s, t :: ts => (s.range? t).toList ++ ranges (s.after t) ts

/-- The tokens outside of all sets. -/
def outsideSets : Spot → List Token → List Token
  | _, [] => []
  | s, t :: ts => (if s = .outside then [t] else []) ++ outsideSets (s.after t) ts

namespace Outline

theorem after_eq_some_iff {o o' : Outline} {t : Token} :
    o.after t = some o' ↔ o.spot.after t = o'.spot ∧
      (∀ range ∈ (o.spot.range? t).toList, range.1 ≤ range.2) ∧
      (if o.spot = .outside then [t] else []).foldlM parenthesis o.groups = some o'.groups := by
  obtain ⟨spot, groups⟩ := o
  obtain ⟨spot', groups'⟩ := o'
  unfold after
  by_cases hspot : spot = .outside
  · -- no range ends outside of all sets
    subst hspot
    have hrange : Spot.outside.range? t = none := rfl
    simp only [hrange, Option.any_none, Bool.false_eq_true, if_false, if_true,
      Option.map_eq_some_iff, mk.injEq, Option.toList, List.foldlM_cons, List.foldlM_nil, bind_pure]
    constructor
    · rintro ⟨n, hn, hafter, rfl⟩
      exact ⟨hafter, nofun, hn⟩
    · rintro ⟨hafter, -, hn⟩
      exact ⟨groups', hn, hafter, rfl⟩
  · simp only [hspot, if_false, List.foldlM_nil]
    cases hrange : spot.range? t with
    | none => simp
    | some range =>
        by_cases hlt : range.2 < range.1
        · simp [hlt, Char.not_le.2 hlt]
        · simp [hlt, Char.not_lt.1 hlt]

/-- **A text has an outline exactly if its ranges ascend and the parentheses outside of its sets
    pair up.** -/
theorem foldlM_after_iff {o o' : Outline} {ts : List Token} :
    ts.foldlM after o = some o' ↔ ts.foldl Spot.after o.spot = o'.spot ∧
      (∀ range ∈ ranges o.spot ts, range.1 ≤ range.2) ∧
      (outsideSets o.spot ts).foldlM parenthesis o.groups = some o'.groups := by
  induction ts generalizing o with
  | nil =>
      obtain ⟨spot, groups⟩ := o
      obtain ⟨spot', groups'⟩ := o'
      simp [ranges, outsideSets]
  | cons t ts ih =>
      simp only [List.foldlM_cons, Option.bind_eq_bind, Option.bind_eq_some_iff, after_eq_some_iff,
        List.foldl_cons, ranges, outsideSets, List.foldlM_append, List.forall_mem_append]
      constructor
      · rintro ⟨o₁, ⟨hspot, hrange, hopen⟩, h⟩
        obtain ⟨hspot', hranges, hcount⟩ := ih.1 h
        rw [← hspot] at hspot' hranges hcount
        exact ⟨hspot', ⟨hrange, hranges⟩, o₁.groups, hopen, hcount⟩
      · rintro ⟨hspot', ⟨hrange, hranges⟩, groups, hopen, hcount⟩
        exact ⟨⟨_, groups⟩, ⟨rfl, hrange, hopen⟩, ih.2 ⟨hspot', hranges, hcount⟩⟩

theorem spot_of_foldlM {o o' : Outline} {ts : List Token} (h : ts.foldlM after o = some o') :
    o'.spot = ts.foldl Spot.after o.spot :=
  (foldlM_after_iff.1 h).1.symm

end Outline

end DirGlob.Regex
