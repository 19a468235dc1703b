import DirGlob.Pattern.Matcher
import DirGlob.Proofs.Pattern.Escape
import DirGlob.Proofs.Pattern.Fragments
import DirGlob.Proofs.Regex.Alternatives

set_option autoImplicit false

/-! # Names with a leading dot

A pattern that does not start with a dot puts a guard against a dot in front of its expression. The
guard protects the first alternative alone, and a bar that is read outside of all groups begins an
alternative without it.

The fragments of a pattern open a group before each bar, but a bracket may take the parenthesis into
a character set. Then the comma of the bar is *loose*. A pattern keeps the names with a leading dot
out exactly if none of the alternatives behind its loose commas matches one
(`matches_undotted_iff`). -/

namespace DirGlob.Pattern

open Regex (Reader)

/-! ## Fragments -/

/-- The fragment is no bar and no backslash that stands for itself. -/
def Fragment.IsClean (f : Fragment) : Prop := ∀ c, f = .char c → c ≠ '|' ∧ c ≠ '\\'

theorem isClean_fragment (b : Braces) {e : Element} (he : e ≠ .plain '\\') :
    (b.fragment e).IsClean := by
  have hgives := b.gives_fragment e
  generalize b.fragment e = f at hgives
  intro d hd
  cases hgives with
  | bare h =>
      cases hd
      refine ⟨?_, ?_⟩ <;>
      · rintro rfl
        exact absurd h (by decide)
  | char hc h =>
      cases hd
      refine ⟨?_, fun hb => he (congrArg _ hb)⟩
      rintro rfl
      exact absurd h (by decide)
  | _ => cases hd

theorem grows_escaped {c : Char} {r r' : Reader} (hesc : r.escaping = false)
    (h : ['\\', c].foldlM Reader.step r = .ok r') : r.bottom.Grows 0 r'.bottom := by
  obtain ⟨s, hs, hc⟩ := Reader.exists_step_of_foldlM h
  obtain ⟨t, ht, hnil⟩ := Reader.exists_step_of_foldlM hc
  cases hnil
  obtain ⟨hsesc, hgrows⟩ := Reader.grows_step hs
  have hgrows' := (Reader.grows_step ht).2
  -- the character may be a bar, but the backslash takes it
  rw [if_neg (by simp)] at hgrows
  rw [if_neg (by simp [hsesc, hesc])] at hgrows'
  exact hgrows.trans hgrows'

theorem grows_bar {r r' : Reader} (hesc : r.escaping = false)
    (h : ['|'].foldlM Reader.step r = .ok r') :
    r.bottom.Grows (if r.isLoose then 1 else 0) r'.bottom := by
  obtain ⟨s, hs, hnil⟩ := Reader.exists_step_of_foldlM h
  cases hnil
  simpa [hesc] using (Reader.grows_step hs).2

theorem grows_fragment {f : Fragment} (hf : f.IsClean) {r r' : Reader} (hesc : r.escaping = false)
    (h : f.text.foldlM Reader.step r = .ok r') :
    r.bottom.Grows (if f = .bar ∧ r.isLoose then 1 else 0) r'.bottom := by
  by_cases hbar : f = .bar
  · subst hbar
    simpa using grows_bar hesc h
  rw [if_neg fun hloose => hbar hloose.1]
  cases f with
  | bar => exact absurd rfl hbar
  | escaped c => exact grows_escaped hesc h
  | char c => exact Reader.grows_foldlM (by simpa [Fragment.text] using (hf c rfl).1.symm) h
  | separator guarded => cases guarded <;> exact Reader.grows_foldlM (by decide) h
  | _ => exact Reader.grows_foldlM (by decide) h

theorem escaping_fragment {f : Fragment} (hf : f.IsClean) {r r' : Reader}
    (hesc : r.escaping = false) (h : f.text.foldlM Reader.step r = .ok r') :
    r'.escaping = false := by
  rw [Reader.escaping_foldlM h, hesc]
  cases f with
  | char c => simp [Fragment.text, (hf c rfl).2]
  | escaped c => simp [Fragment.text]
  | separator guarded => cases guarded <;> rfl
  | _ => rfl

/-! ## Patterns -/

/-- How many of the commas divide alternatives of the whole expression, when the reader comes to the
    elements behind these braces. Braces that a set has taken open no group for the reader. -/
def looseCommas (b : Braces) (r : Reader) : List Element → Nat
  | [] => 0
  | e :: es =>
    (if (e = .plain ',' ∧ b.depth > 0) ∧ r.isLoose then 1 else 0) +
      match (b.fragment e).text.foldlM Reader.step r with
      | .ok s => looseCommas (b.after e) s es
      | .error _ => 0

theorem grows_closing {k : Nat} {r r' : Reader} (hesc : r.escaping = false)
    (h : ((List.replicate k Fragment.closeGroup).flatMap Fragment.text).foldlM Reader.step r =
      .ok r') :
    r'.escaping = false ∧ r.bottom.Grows 0 r'.bottom := by
  have hclean : Fragment.closeGroup.IsClean := by rintro c ⟨⟩
  induction k generalizing r with
  | zero =>
      cases h
      exact ⟨hesc, Regex.Frame.grows_refl _⟩
  | succ k ih =>
      rw [List.replicate_succ, List.flatMap_cons] at h
      obtain ⟨s, hs, hrest⟩ := Reader.exists_of_foldlM_append h
      obtain ⟨hesc', hgrows⟩ := ih (escaping_fragment hclean hesc hs) hrest
      exact ⟨hesc', (grows_fragment hclean hesc hs).trans hgrows⟩

/-- The elements of a pattern keep the guard of the first alternative, and begin as many others as
    there are loose commas. -/
theorem grows_fragmentsFrom {es : List Element} (hes : ∀ e ∈ es, e ≠ .plain '\\') {b : Braces}
    {r r' : Reader} (hesc : r.escaping = false)
    (h : ((fragmentsFrom b es).flatMap Fragment.text).foldlM Reader.step r = .ok r') :
    r'.escaping = false ∧ r.bottom.Grows (looseCommas b r es) r'.bottom := by
  induction es generalizing b r with
  | nil => exact grows_closing hesc h
  | cons e es ih =>
      have hclean := isClean_fragment b (hes e List.mem_cons_self)
      rw [fragmentsFrom, List.flatMap_cons] at h
      obtain ⟨s, hs, hrest⟩ := Reader.exists_of_foldlM_append h
      have hgrows := grows_fragment hclean hesc hs
      obtain ⟨hesc', hgrows'⟩ := ih (fun e' he' => hes e' (List.mem_cons_of_mem _ he'))
        (escaping_fragment hclean hesc hs) hrest
      simp only [Braces.fragment_eq_bar_iff] at hgrows
      simp only [looseCommas, hs]
      exact ⟨hesc', hgrows.trans hgrows'⟩

theorem foldlM_anchors : ('^' :: guardText).foldlM Reader.step .start = .ok .guarded := rfl

theorem guardedFirst_of_ofChars {pattern : List Char} {e : Regex}
    (hdot : pattern.head? ≠ some '.') (h : Regex.ofChars (regexChars pattern) = .ok e) :
    e.GuardedFirst ∧
      e.laterAlternatives.length = looseCommas .none .guarded (elements pattern) := by
  -- the end of the name is read like an escaped character, so it is no case of its own
  have htext : regexChars pattern = ('^' :: guardText) ++
      ((fragments pattern).flatMap Fragment.text ++ (Fragment.escaped 'Z').text) := by
    rw [regexChars, if_neg hdot, List.append_assoc]
    rfl
  obtain ⟨last, hlast, hfinish⟩ := Reader.exists_of_bind_eq_ok h
  rw [htext] at hlast
  obtain ⟨first, hstart, hrest⟩ := Reader.exists_of_foldlM_append hlast
  rw [foldlM_anchors] at hstart
  cases hstart
  obtain ⟨r, hr, hend⟩ := Reader.exists_of_foldlM_append hrest
  obtain ⟨hesc, hgrows⟩ := grows_fragmentsFrom
    (fun e' he' hb => (mem_unescaped_of_plain (hb ▸ he')).2.1 rfl) rfl hr
  have hgrows' := hgrows.trans (grows_escaped hesc hend)
  obtain ⟨hguarded, hbars⟩ := hgrows' .anchors
  rw [Reader.eq_body_of_finish hfinish]
  refine ⟨Regex.Frame.guardedFirst_body hguarded, ?_⟩
  rw [Regex.Frame.length_laterAlternatives_body hguarded, hbars]
  exact Nat.zero_add _

theorem ofChars_of_ofPattern {pattern : String} {m : Matcher}
    (h : Matcher.ofPattern pattern = .ok m) :
    Regex.ofChars (regexChars pattern.toList) = .ok m.program := by
  obtain ⟨e, he, hm⟩ := Reader.exists_of_bind_eq_ok h
  cases hm
  have htext : (regexText pattern).toList = regexChars pattern.toList := String.toList_ofList
  rw [Regex.ofText, htext] at he
  cases hread : Regex.ofChars (regexChars pattern.toList) with
  | error fault =>
      rw [hread] at he
      cases he
  | ok r =>
      rw [hread] at he
      cases he
      rfl

/-- **A pattern keeps a name with a leading dot out exactly if the alternatives behind its loose
    commas do.** The pattern itself does not start with a dot; it may have any brackets that let it
    compile. -/
theorem matches_undotted_iff {pattern : String} {m : Matcher}
    (h : Matcher.ofPattern pattern = .ok m) (hdot : pattern.toList.head? ≠ some '.') :
    m.program.laterAlternatives.length = looseCommas .none .guarded (elements pattern.toList) ∧
      ∀ name : String, (m.matches? name = true → name.toList.head? ≠ some '.') ↔
        ∀ a ∈ m.program.laterAlternatives,
          a.matches? name = true → name.toList.head? ≠ some '.' := by
  obtain ⟨hfirst, hlength⟩ := guardedFirst_of_ofChars hdot (ofChars_of_ofPattern h)
  refine ⟨hlength, fun name => ?_⟩
  by_cases hname : name.toList.head? = some '.'
  · rw [Matcher.matches?, hfirst.matches?_iff hname]
    exact ⟨fun h a ha hmatch => h ⟨a, ha, hmatch⟩, fun h ⟨a, ha, hmatch⟩ => h a ha hmatch⟩
  · exact ⟨fun _ _ _ _ => hname, fun _ _ => hname⟩

theorem matches_undotted_of_swallowed_brace :
    ∃ m, Matcher.ofPattern "[\x7b],.b[\x7d]" = .ok m ∧
      m.program.laterAlternatives.length = 1 ∧
      ∀ name : String, (m.matches? name = true → name.toList.head? ≠ some '.') ↔
        ∀ a ∈ m.program.laterAlternatives,
          a.matches? name = true → name.toList.head? ≠ some '.' := by
  have hdot : "[\x7b],.b[\x7d]".toList.head? ≠ some '.' := by decide
  obtain ⟨m, hm⟩ : ∃ m, Matcher.ofPattern "[\x7b],.b[\x7d]" = .ok m := ⟨_, rfl⟩
  obtain ⟨hlength, hiff⟩ := matches_undotted_iff hm hdot
  exact ⟨m, hm, hlength.trans (by decide), hiff⟩

/-- A set that takes the parenthesis makes the comma behind it loose, and what stands behind that
    matches a name with a leading dot. -/
theorem not_forall_matches_undotted : ¬∀ (pattern : String) (m : Matcher) (name : String),
    Matcher.ofPattern pattern = .ok m → pattern.toList.head? ≠ some '.' →
      m.matches? name = true → name.toList.head? ≠ some '.' := by
  intro h
  exact h "[\x7b],.b[\x7d]" _ ".b)" rfl (by decide) (by decide) (by decide)

end DirGlob.Pattern
