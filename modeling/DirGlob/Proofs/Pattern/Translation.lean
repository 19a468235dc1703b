import DirGlob.Proofs.Pattern.StrayBrace
import Mathlib.Data.List.Induction

set_option autoImplicit false

/-! # The translation as a loop

The fragments of a pattern are made one after the other, by a loop that keeps what it has emitted
and the two counters of `Braces`. The counters drift apart: an opening brace adds one to both, and a
closing brace takes one from the depth even where no group is open. What relates them is the
invariant of the loop (`Translation.Invariant`), which each turn preserves: the open groups are
those that have been opened and not closed among the fragments, and the depth is their number less
the stray braces.

So a bar is only emitted in a group, and once the groups that are left open are closed, the
fragments are nested (`IsNested`): every group ends, and every bar stands in one.

All this is said of the texts of the fragments, so that nothing else can pass for a fragment of a
group. -/

namespace DirGlob.Pattern

/-! ## Fragments and their texts -/

/-- The fragments that groups are made of. -/
def groupFragments : List Fragment := [.openGroup, .closeGroup, .bar]

namespace Braces

/-- What has the text of a group, or of a bar, is one. -/
theorem text_fragment_eq_iff {f : Fragment} (hf : f ∈ groupFragments) (b : Braces) (e : Element) :
    (b.fragment e).text = f.text ↔ b.fragment e = f := by
  refine ⟨fun h => ?_, congrArg Fragment.text⟩
  have hkept {c : Char} (hc : [c] = f.text) : keepsBackslash c = true ∧ isSpecial c = true := by
    simp only [groupFragments, List.mem_cons, List.not_mem_nil, or_false] at hf
    rcases hf with rfl | rfl | rfl <;> cases hc <;> decide
  have hgives := b.gives_fragment e
  generalize b.fragment e = g at hgives h
  cases hgives with
  | bare hc => simp [(hkept h).1] at hc
  | char _ hc => simp [(hkept h).2] at hc
  | _ =>
      simp only [groupFragments, List.mem_cons, List.not_mem_nil, or_false] at hf
      rcases hf with rfl | rfl | rfl <;> simp [Fragment.text] at h ⊢

theorem fragment_eq_closeGroup_iff (b : Braces) (e : Element) :
    b.fragment e = .closeGroup ↔ e = .plain '}' ∧ 0 < b.openGroups := by
  have hgives := b.gives_fragment e
  generalize b.fragment e = f at hgives
  cases hgives with
  | closeGroup h => simp [h]
  | strayClose h => simp [h]
  | special hc h => simp [hc.closing]
  | char hc h => simp [hc.closing]
  | _ => simp

theorem fragment_eq_strayClose_iff (b : Braces) (e : Element) :
    b.fragment e = .strayClose ↔ e = .plain '}' ∧ b.openGroups = 0 := by
  have hgives := b.gives_fragment e
  generalize b.fragment e = f at hgives
  cases hgives with
  | closeGroup h => simp [Nat.ne_of_gt h]
  | strayClose h => simp [h]
  | special hc h => simp [hc.closing]
  | char hc h => simp [hc.closing]
  | _ => simp

/-- Without a fragment of a group the open groups stay as they are. -/
theorem openGroups_after_of_not_mem {b : Braces} {e : Element}
    (h : b.fragment e ∉ groupFragments) : (b.after e).openGroups = b.openGroups := by
  by_cases hopen : e = .plain '{'
  · exact absurd (by rw [(b.fragment_eq_openGroup_iff e).2 hopen]; decide) h
  by_cases hclose : e = .plain '}'
  · have hnone : b.openGroups = 0 := by
      refine Nat.eq_zero_of_not_pos fun hpos => h ?_
      rw [(b.fragment_eq_closeGroup_iff e).2 ⟨hclose, hpos⟩]
      decide
    rw [hclose, hnone]
    exact congrArg (· - 1) hnone
  · rw [after_of_ne hopen hclose]

end Braces

/-! ## Braces without a partner -/

/-- The braces without a partner: those that are still to be closed, and those that close
    nothing. -/
structure Unpaired where
  opening : Nat
  closing : Nat
deriving Repr, DecidableEq

namespace Unpaired

/-- Goes on by an element: a closing brace is paired with an opening one, if there is one left. -/
def after (u : Unpaired) (e : Element) : Unpaired :=
  if e = .plain '{' then { u with opening := u.opening + 1 }
  else if e = .plain '}' then
    if u.opening = 0 then { u with closing := u.closing + 1 }
    else { u with opening := u.opening - 1 }
  else u

/-- The braces without a partner among elements. -/
def among (es : List Element) : Unpaired := es.foldl after ⟨0, 0⟩

theorem among_concat (es : List Element) (e : Element) :
    among (es ++ [e]) = (among es).after e := by
  rw [among, List.foldl_append]
  rfl

theorem after_open (u : Unpaired) : u.after (.plain '{') = ⟨u.opening + 1, u.closing⟩ :=
  if_pos rfl

theorem after_close (u : Unpaired) : u.after (.plain '}') =
    if u.opening = 0 then ⟨u.opening, u.closing + 1⟩ else ⟨u.opening - 1, u.closing⟩ :=
  (if_neg (by simp)).trans (if_pos rfl)

theorem after_of_ne (u : Unpaired) {e : Element} (hopen : e ≠ .plain '{')
    (hclose : e ≠ .plain '}') : u.after e = u :=
  (if_neg hopen).trans (if_neg hclose)

end Unpaired

/-! ## The loop -/

/-- The state of the loop. -/
structure Translation where
  emitted : List Fragment
  braces : Braces

namespace Translation

/-- Before the first turn. -/
def start : Translation := ⟨[], .none⟩

/-- One turn of the loop. -/
def step (t : Translation) (e : Element) : Translation :=
  ⟨t.emitted ++ [t.braces.fragment e], t.braces.after e⟩

/-- The state after turns for these elements. -/
def after (es : List Element) : Translation := es.foldl step start

/-- What has been emitted, with the groups closed that are open. -/
def finish (t : Translation) : List Fragment :=
  t.emitted ++ List.replicate t.braces.openGroups .closeGroup

/-- The texts of what has been emitted. -/
def texts (t : Translation) : List (List Char) := t.emitted.map Fragment.text

variable {t : Translation} {done : List Element}

theorem finish_foldl (t : Translation) (es : List Element) :
    (es.foldl step t).finish = t.emitted ++ fragmentsFrom t.braces es := by
  induction es generalizing t with
  | nil => rfl
  | cons e es ih =>
      rw [List.foldl_cons, ih, fragmentsFrom]
      exact List.append_assoc t.emitted [t.braces.fragment e] _

/-- The loop makes the fragments of a pattern. -/
theorem finish_after (pattern : List Char) :
    (after (elements pattern)).finish = fragments pattern :=
  (finish_foldl start (elements pattern)).trans (List.nil_append _)

theorem after_concat (es : List Element) (e : Element) :
    after (es ++ [e]) = (after es).step e := by
  rw [after, List.foldl_append]
  rfl

theorem emitted_step (t : Translation) (e : Element) :
    (t.step e).emitted = t.emitted ++ [t.braces.fragment e] := rfl

theorem texts_step (t : Translation) (e : Element) :
    (t.step e).texts = t.texts ++ [(t.braces.fragment e).text] := by
  rw [texts, emitted_step, List.map_append]
  rfl

/-! ### The invariant -/

/-- What holds of the state after each turn. -/
structure Invariant (done : List Element) (t : Translation) : Prop where
  /-- The open groups are those that have been opened and not closed. -/
  groups : t.braces.openGroups + t.texts.count [')'] = t.texts.count ['(']
  /-- They come from the braces that are still to be closed. -/
  opening : t.braces.openGroups = (Unpaired.among done).opening
  /-- The other braces without a partner stand for themselves. -/
  strays : t.emitted.count .strayClose = (Unpaired.among done).closing
  /-- The depth is less by the stray braces. -/
  depth : t.braces.depth = t.braces.openGroups - (Unpaired.among done).closing

theorem invariant_start : Invariant [] start := ⟨rfl, rfl, rfl, rfl⟩

/-- What is counted among the fragments goes up with the braces. -/
theorem count_step (t : Translation) (e : Element) :
    (t.step e).texts.count ['('] = t.texts.count ['('] + (if e = .plain '{' then 1 else 0) ∧
      (t.step e).texts.count [')'] =
        t.texts.count [')'] + (if e = .plain '}' ∧ 0 < t.braces.openGroups then 1 else 0) ∧
      (t.step e).emitted.count .strayClose = t.emitted.count .strayClose +
        if e = .plain '}' ∧ t.braces.openGroups = 0 then 1 else 0 := by
  have hopen : (t.braces.fragment e).text = ['('] ↔ e = .plain '{' :=
    (Braces.text_fragment_eq_iff (f := .openGroup) (by decide) ..).trans
      (Braces.fragment_eq_openGroup_iff ..)
  have hclose : (t.braces.fragment e).text = [')'] ↔ e = .plain '}' ∧ 0 < t.braces.openGroups :=
    (Braces.text_fragment_eq_iff (f := .closeGroup) (by decide) ..).trans
      (Braces.fragment_eq_closeGroup_iff ..)
  simp only [texts_step, emitted_step, List.count_append, List.count_singleton, beq_iff_eq, hopen,
    hclose, Braces.fragment_eq_strayClose_iff, and_self]

/-- Each turn preserves the invariant. -/
theorem Invariant.step (h : Invariant done t) (e : Element) :
    Invariant (done ++ [e]) (t.step e) := by
  obtain ⟨hgroups, hopening, hstrays, hdepth⟩ := h
  obtain ⟨hopened, hclosed, hstray⟩ := t.count_step e
  -- What is left to be shown, once it is known what the element makes of the counters.
  have hnext {n k : Nat} {d : Int} (hbraces : t.braces.after e = ⟨d, n⟩)
      (hunpaired : (Unpaired.among done).after e = ⟨n, k⟩)
      (hcount : n + (t.step e).texts.count [')'] = (t.step e).texts.count ['('])
      (hk : (t.step e).emitted.count .strayClose = k) (hd : d = n - k) :
      Invariant (done ++ [e]) (t.step e) := by
    have hstep : (t.step e).braces = ⟨d, n⟩ := hbraces
    rw [← Unpaired.among_concat] at hunpaired
    exact ⟨by rw [hstep, hcount], by rw [hstep, hunpaired], by rw [hunpaired, hk],
      by rw [hstep, hunpaired, hd]⟩
  by_cases hopen : e = .plain '{'
  · subst hopen
    rw [if_pos rfl] at hopened
    rw [if_neg (by simp)] at hclosed hstray
    have hunpaired : (Unpaired.among done).after (.plain '{') =
        ⟨t.braces.openGroups + 1, (Unpaired.among done).closing⟩ := by
      rw [Unpaired.after_open, hopening]
    exact hnext rfl hunpaired (by omega) (by omega) (by omega)
  rw [if_neg hopen] at hopened
  by_cases hclose : e = .plain '}'
  · subst hclose
    by_cases hnone : t.braces.openGroups = 0
    · rw [if_neg (by simp [hnone])] at hclosed
      rw [if_pos ⟨rfl, hnone⟩] at hstray
      have hunpaired : (Unpaired.among done).after (.plain '}') =
          ⟨t.braces.openGroups - 1, (Unpaired.among done).closing + 1⟩ := by
        rw [Unpaired.after_close, if_pos (hopening ▸ hnone), ← hopening, hnone]
      exact hnext rfl hunpaired (by omega) (by omega) (by omega)
    · rw [if_pos ⟨rfl, Nat.pos_of_ne_zero hnone⟩] at hclosed
      rw [if_neg fun h => hnone h.2] at hstray
      have hunpaired : (Unpaired.among done).after (.plain '}') =
          ⟨t.braces.openGroups - 1, (Unpaired.among done).closing⟩ := by
        rw [Unpaired.after_close, if_neg (hopening ▸ hnone), hopening]
      exact hnext rfl hunpaired (by omega) (by omega) (by omega)
  · rw [if_neg fun h => hclose h.1] at hclosed hstray
    have hunpaired : (Unpaired.among done).after e =
        ⟨t.braces.openGroups, (Unpaired.among done).closing⟩ := by
      rw [Unpaired.after_of_ne _ hopen hclose, hopening]
    have hbraces : t.braces.after e = ⟨t.braces.depth, t.braces.openGroups⟩ :=
      Braces.after_of_ne hopen hclose
    exact hnext hbraces hunpaired (by omega) (by omega) hdepth

/-- The invariant holds after any number of turns. -/
theorem invariant_after (es : List Element) : Invariant es (after es) := by
  induction es using List.reverseRecOn with
  | nil => exact invariant_start
  | append_singleton es e ih =>
      rw [after_concat]
      exact ih.step e

/-- A bar is only emitted while a group is open. -/
theorem Invariant.openGroups_pos (h : Invariant done t) {e : Element}
    (hbar : (t.step e).texts = t.texts ++ [['|']]) : 0 < t.braces.openGroups := by
  rw [texts_step, List.append_cancel_left_eq, List.cons.injEq] at hbar
  have hfragment := (Braces.text_fragment_eq_iff (f := .bar) (by decide) ..).1 hbar.1
  obtain ⟨-, hdepth⟩ := (Braces.fragment_eq_bar_iff ..).1 hfragment
  have hinvariant := h.depth
  omega

end Translation

/-! ## Nested groups -/

/-- Texts in which every group is closed and every bar stands in a group, if they stand in a group
    themselves or not. -/
inductive IsNested : Bool → List (List Char) → Prop
  | nil (inside : Bool) : IsNested inside []
  | other {inside : Bool} {text : List Char} {texts : List (List Char)}
      (h : ∀ f ∈ groupFragments, text ≠ f.text) :
      IsNested inside texts → IsNested inside (text :: texts)
  | bar {texts : List (List Char)} : IsNested true texts → IsNested true (['|'] :: texts)
  | group {inside : Bool} {body texts : List (List Char)} :
      IsNested true body → IsNested inside texts →
        IsNested inside (['('] :: (body ++ [')'] :: texts))

/-- Texts that close this many groups one after the other, and are nested between and behind
    that. -/
inductive Closes : Nat → List (List Char) → Prop
  | done {texts : List (List Char)} : IsNested false texts → Closes 0 texts
  | close {n : Nat} {body texts : List (List Char)} :
      IsNested true body → Closes n texts → Closes (n + 1) (body ++ [')'] :: texts)

namespace Closes

variable {n : Nat} {text : List Char} {texts : List (List Char)}

theorem cons_other (hother : ∀ f ∈ groupFragments, text ≠ f.text) (h : Closes n texts) :
    Closes n (text :: texts) := by
  cases h with
  | done hnested => exact .done (.other hother hnested)
  | close hbody hrest => exact .close (.other hother hbody) hrest

theorem cons_bar (hn : 0 < n) (h : Closes n texts) : Closes n (['|'] :: texts) := by
  cases h with
  | done hnested => exact absurd hn (Nat.lt_irrefl 0)
  | close hbody hrest => exact .close (.bar hbody) hrest

theorem cons_open (h : Closes (n + 1) texts) : Closes n (['('] :: texts) := by
  cases h with
  | close hbody hrest =>
      cases hrest with
      | done hnested => exact .done (.group hbody hnested)
      | close hbody' hrest' =>
          have hboth := Closes.close (.group hbody hbody') hrest'
          rwa [List.cons_append, List.append_assoc, List.cons_append] at hboth

theorem cons_close (h : Closes n texts) : Closes (n + 1) ([')'] :: texts) :=
  .close (.nil true) h

theorem replicate (n : Nat) : Closes n (List.replicate n [')']) := by
  induction n with
  | zero => exact .done (.nil false)
  | succ n ih => exact cons_close ih

end Closes

/-- Fragments close the groups that are open before them. -/
theorem closes_fragmentsFrom {b : Braces} (hle : b.depth ≤ b.openGroups) (es : List Element) :
    Closes b.openGroups ((fragmentsFrom b es).map Fragment.text) := by
  induction es generalizing b with
  | nil =>
      rw [fragmentsFrom, List.map_replicate]
      exact .replicate b.openGroups
  | cons e es ih =>
      have hrest := ih (Braces.depth_le_after hle e)
      rw [fragmentsFrom, List.map_cons]
      by_cases hgroup : b.fragment e ∈ groupFragments
      · simp only [groupFragments, List.mem_cons, List.not_mem_nil, or_false] at hgroup
        rcases hgroup with hopen | hclose | hbar
        · rw [(b.fragment_eq_openGroup_iff e).1 hopen] at hrest ⊢
          exact hrest.cons_open
        · obtain ⟨rfl, hpos⟩ := (b.fragment_eq_closeGroup_iff e).1 hclose
          obtain ⟨n, hn⟩ := Nat.exists_eq_add_one.2 hpos
          have hafter : (b.after (.plain '}')).openGroups = n := congrArg (· - 1) hn
          rw [hclose, hn]
          exact (hafter ▸ hrest).cons_close
        · obtain ⟨rfl, hdepth⟩ := (b.fragment_eq_bar_iff e).1 hbar
          rw [hbar]
          exact hrest.cons_bar (by omega)
      · rw [Braces.openGroups_after_of_not_mem hgroup] at hrest
        refine hrest.cons_other fun f hf htext => hgroup ?_
        rwa [(Braces.text_fragment_eq_iff hf b e).1 htext]

/-- **The invariant of the translation.** After each turn of the loop the number of open groups is
    that of the opening parentheses emitted so far less that of the closing ones, of which there are
    no more: one for each brace that is still to be closed. The depth is that number less the stray
    braces seen so far, which are those that have been emitted to stand for themselves. If the next
    turn emits a bar, a group is open. The fragments of a pattern are what the loop emits and a
    closing parenthesis for each group that is left open, and in them every group is closed and
    every bar stands in a group. -/
theorem translation_invariant (pattern : List Char) :
    (∀ done rest, elements pattern = done ++ rest →
      let t := Translation.after done
      t.texts.count [')'] ≤ t.texts.count ['('] ∧
        (t.braces.openGroups : Int) = t.texts.count ['('] - t.texts.count [')'] ∧
        t.braces.openGroups = (Unpaired.among done).opening ∧
        t.braces.depth = t.braces.openGroups - (Unpaired.among done).closing ∧
        t.emitted.count .strayClose = (Unpaired.among done).closing ∧
        ∀ e, rest.head? = some e → (t.step e).texts = t.texts ++ [['|']] →
          0 < t.braces.openGroups) ∧
      (Translation.after (elements pattern)).finish = fragments pattern ∧
      IsNested false ((fragments pattern).map Fragment.text) := by
  refine ⟨fun done rest _ => ?_, Translation.finish_after pattern, ?_⟩
  · have hinvariant := Translation.invariant_after done
    have hgroups := hinvariant.groups
    exact ⟨by omega, by omega, hinvariant.opening, hinvariant.depth, hinvariant.strays,
      fun e _ hbar => hinvariant.openGroups_pos hbar⟩
  · have hcloses := closes_fragmentsFrom (b := .none) (Int.le_refl 0) (elements pattern)
    cases hcloses with
    | done hnested => exact hnested

/-- A stray brace, and a comma behind it that divides alternatives of the second of two groups. -/
theorem translation_invariant_of_stray :
    let pattern := ['}', '{', '{', 'a', ',', 'b']
    let done : List Element := [.plain '}', .plain '{', .plain '{', .plain 'a']
    let t := Translation.after done
    elements pattern = done ++ [.plain ',', .plain 'b'] ∧ t.braces = ⟨1, 2⟩ ∧
      t.texts = [['\\', '}'], ['('], ['('], ['a']] ∧ (Unpaired.among done).closing = 1 ∧
      (t.step (.plain ',')).texts = t.texts ++ [['|']] ∧ 0 < t.braces.openGroups ∧
      IsNested false [['\\', '}'], ['('], ['('], ['a'], ['|'], ['b'], [')'], [')']] := by
  intro pattern done t
  have helements : elements pattern = done ++ [.plain ',', .plain 'b'] := rfl
  have hbar : (t.step (.plain ',')).texts = t.texts ++ [['|']] := rfl
  obtain ⟨hturns, -, hnested⟩ := translation_invariant pattern
  obtain ⟨-, -, -, -, -, hinside⟩ := hturns done _ helements
  exact ⟨helements, rfl, rfl, rfl, hbar, hinside _ rfl hbar, hnested⟩

end DirGlob.Pattern
