import DirGlob.Proofs.Pattern.Trimming

set_option autoImplicit false

/-! # Captive commas

A pattern is expanded next to the pattern with its stray braces escaped (`Expansion.Tracks`). Each
stray brace takes one from the depth of the first alone. So a group that opens while the depth is
negative has commas that are captive in the first and divide alternatives in the second, and a group
that opens later is the same in both.

Without a captive comma the two patterns have one regular expression. With one, what each word of
the first pattern leaves in the second has lost a comma. Then the second pattern matches a name that
is shorter than the shortest one of the first (`not_names_of_captive`), as long as no guard of a
separator looks at what stands behind it. -/

namespace DirGlob.Pattern

open Word (Trims)

namespace Expansion

/-! ## Step by step -/

/-- Inside a group, an element changes the depth and the number of the groups by as much as it
    changes the groups above the hole. -/
theorem exists_leads (e : Element) (g : Choice) (above : List Choice) :
    ∃ inside, Leads (g :: above) [e] inside ∧ ∀ b : Braces, 0 < b.openGroups →
      (b.after e).depth + (g :: above).length = b.depth + inside.length ∧
        (b.after e).openGroups + (g :: above).length = b.openGroups + inside.length := by
  by_cases hopen : e = .plain '{'
  · subst hopen
    refine ⟨_, leads_open (g :: above), fun b _ => ?_⟩
    simp only [Braces.after, List.length_cons]
    omega
  by_cases hclose : e = .plain '}'
  · subst hclose
    obtain ⟨inside, hlength, hleads⟩ := exists_leads_close g above
    refine ⟨inside, hleads, fun b hpos => ?_⟩
    simp only [Braces.after, List.length_cons, hlength]
    omega
  by_cases hcomma : e = .plain ','
  · subst hcomma
    exact ⟨_, leads_comma g above, fun b _ => ⟨rfl, rfl⟩⟩
  · obtain ⟨inside, hlength, hleads⟩ := exists_leads_push hopen hclose hcomma (g :: above)
    refine ⟨inside, hleads, fun b _ => ?_⟩
    rw [Braces.after_of_ne hopen hclose, hlength]
    exact ⟨rfl, rfl⟩

/-- Behind these braces the one expansion has read a pattern and the other one the pattern with its
    stray braces escaped. Commas are captive in the groups up to `c`; the groups `above` have opened
    at a depth that is not negative, so that they are the same in both. -/
inductive Tracks (b : Braces) (strict : Prop) : Expansion → Expansion → Prop
  | intro {s : Nat} {c c' : Choice} {ds ds' above : List Choice}
      (depth : b.depth + s = b.openGroups) (groups : b.openGroups = ds.length + above.length)
      (low : ds.length ≤ s) (full : above ≠ [] → ds.length = s)
      (holds : HoldsAll s strict c ds c' ds') :
      Tracks b strict (fill b.depth c ds above) (fill b.openGroups c' ds' above)

variable {b : Braces} {strict : Prop} {x x' : Expansion}

theorem tracks_outside {s : Nat} {c c' : Choice} {ds ds' : List Choice}
    (depth : b.depth + s = b.openGroups) (groups : b.openGroups = ds.length)
    (low : ds.length ≤ s) (holds : HoldsAll s strict c ds c' ds') :
    Tracks b strict ⟨b.depth, c, ds⟩ ⟨b.openGroups, c', ds'⟩ :=
  @Tracks.intro b strict s c c' ds ds' [] depth groups low (fun h => absurd rfl h) holds

theorem tracks_start : Tracks .none False .start .start :=
  tracks_outside (s := 0) rfl rfl (Nat.le_refl 0) (.outermost holdsOutermost_opened)

section

variable {s : Nat} {c c' : Choice} {ds ds' above : List Choice}

/-- Inside a group that is the same in both, an element appends the same words to the groups
    around it. -/
theorem tracks_inside {g : Choice} (depth : b.depth + s = b.openGroups)
    (groups : b.openGroups = ds.length + (g :: above).length) (full : ds.length = s)
    (holds : HoldsAll s strict c ds c' ds') (e : Element) :
    Tracks (b.after e) strict ((fill b.depth c ds (g :: above)).step e)
      ((fill b.openGroups c' ds' (g :: above)).step e) := by
  have hpos : 0 < b.openGroups := by
    rw [groups, List.length_cons]
    omega
  obtain ⟨inside, ⟨ws, hws⟩, hcount⟩ := exists_leads e g above
  obtain ⟨hdepth, hgroups⟩ := hcount b hpos
  have hstep : (fill b.depth c ds (g :: above)).step e =
      fill (b.after e).depth (c.append ws) ds inside := by
    rw [show b.depth = (0 : Nat) + ((g :: above).length : Int) by omega,
      show (b.after e).depth = (0 : Nat) + (inside.length : Int) by omega]
    exact hws 0 c ds
  have hstep' : (fill b.openGroups c' ds' (g :: above)).step e =
      fill (b.after e).openGroups (c'.append ws) ds' inside := by
    rw [show (b.openGroups : Int) = s + ((g :: above).length : Int) by omega,
      show ((b.after e).openGroups : Int) = s + (inside.length : Int) by omega]
    exact hws s c' ds'
  rw [hstep, hstep']
  exact .intro (s := s) (by omega) (by omega) (Nat.le_of_eq full) (fun _ => full)
    (holds.append_self ws)

theorem tracks_open (depth : b.depth + s = b.openGroups) (groups : b.openGroups = ds.length)
    (low : ds.length ≤ s) (holds : HoldsAll s strict c ds c' ds') :
    Tracks (b.after (.plain '{')) strict (step ⟨b.depth, c, ds⟩ (.plain '{'))
      (step ⟨b.openGroups, c', ds'⟩ (.plain '{')) := by
  have hdepth : (b.after (.plain '{')).depth + s = (b.after (.plain '{')).openGroups := by
    simp only [Braces.after]
    omega
  rcases Nat.lt_or_ge ds.length s with hlow | hfull
  · -- the depth is still negative, so commas are captive in the group
    have hgroups : (b.after (.plain '{')).openGroups = (c :: ds).length := congrArg (· + 1) groups
    exact tracks_outside hdepth hgroups hlow holds.openGroup
  · have hgroups : (b.after (.plain '{')).openGroups = ds.length + [Choice.opened].length :=
      congrArg (· + 1) groups
    exact @Tracks.intro _ _ s c c' ds ds' [.opened] hdepth hgroups low
      (fun _ => Nat.le_antisymm low hfull) holds

theorem tracks_stray (depth : b.depth + s = b.openGroups) (groups : b.openGroups = 0)
    (holds : HoldsOutermost s strict c c') :
    Tracks (b.after (.plain '}')) strict (step ⟨b.depth, c, []⟩ (.plain '}'))
      (step ⟨b.openGroups, c', []⟩ (.escaped '}')) := by
  have hgroups : (b.after (.plain '}')).openGroups = 0 := congrArg (· - 1) groups
  have hdepth : (b.after (.plain '}')).depth + (s + 1 : Nat) = (b.after (.plain '}')).openGroups := by
    simp only [Braces.after]
    omega
  have hstep : step ⟨b.openGroups, c', []⟩ (.escaped '}') =
      ⟨(b.after (.plain '}')).openGroups, c'.push (.literal '}'), []⟩ := by
    rw [hgroups, groups]
    rfl
  rw [hstep]
  exact tracks_outside hdepth hgroups (Nat.zero_le _) (.outermost holds.stray)

theorem tracks_close {d : Choice} (depth : b.depth + s = b.openGroups)
    (groups : b.openGroups = (d :: ds).length) (low : (d :: ds).length ≤ s)
    (holds : HoldsAll s strict c (d :: ds) c' ds') :
    Tracks (b.after (.plain '}')) strict (step ⟨b.depth, c, d :: ds⟩ (.plain '}'))
      (step ⟨b.openGroups, c', ds'⟩ (.plain '}')) := by
  rw [List.length_cons] at groups low
  have hgroups : (b.after (.plain '}')).openGroups = ds.length := congrArg (· - 1) groups
  have hdepth : (b.after (.plain '}')).depth + s = (b.after (.plain '}')).openGroups := by
    simp only [Braces.after]
    omega
  have hpred : (b.openGroups : Int) - 1 = (b.after (.plain '}')).openGroups := by omega
  cases ds' with
  | nil => cases holds
  | cons d' ds' =>
      have hstep : step ⟨b.openGroups, c', d' :: ds'⟩ (.plain '}') =
          ⟨(b.after (.plain '}')).openGroups, d'.append c'.words, ds'⟩ :=
        congrArg (Expansion.mk · _ _) hpred
      rw [hstep]
      exact tracks_outside hdepth hgroups (Nat.le_of_succ_le low) (holds.closeGroup (by omega))

/-- A comma in a group of a depth that is not positive is captive. Once the stray braces are escaped
    it divides alternatives. -/
theorem tracks_comma (depth : b.depth + s = b.openGroups) (groups : b.openGroups = ds.length)
    (low : ds.length ≤ s) (holds : HoldsAll s strict c ds c' ds') :
    Tracks b (strict ∨ b.IsCaptive (.plain ',')) (step ⟨b.depth, c, ds⟩ (.plain ','))
      (step ⟨b.openGroups, c', ds'⟩ (.plain ',')) := by
  have hdepth : ¬b.depth > 0 := by omega
  have hstep : step ⟨b.depth, c, ds⟩ (.plain ',') = ⟨b.depth, c.push (.literal ','), ds⟩ := by
    rw [step_plain _ (by decide) (by decide) (by decide) (by decide), if_neg fun h => hdepth h.2]
    rfl
  rw [hstep]
  cases ds with
  | nil =>
      cases ds' with
      | cons d' ds' => cases holds
      | nil =>
          have hnone : ¬(b.openGroups : Int) > 0 := by simp [groups]
          have hstep' : step ⟨b.openGroups, c', []⟩ (.plain ',') =
              ⟨b.openGroups, c'.push (.literal ','), []⟩ := by
            rw [step_plain _ (by decide) (by decide) (by decide) (by decide),
              if_neg fun h => hnone h.2]
            rfl
          have hfree : ¬b.IsCaptive (.plain ',') := fun h => Nat.ne_of_gt h.2.2 groups
          rw [hstep']
          exact tracks_outside depth groups low
            ((holds.append_self [[.literal ',']]).mono fun h => h.resolve_right hfree)
  | cons d ds =>
      cases ds' with
      | nil => cases holds
      | cons d' ds' =>
          have hsome : (b.openGroups : Int) > 0 := by
            rw [groups, List.length_cons]
            omega
          rw [step_comma _ hsome]
          exact tracks_outside depth groups low (holds.comma.mono fun _ => trivial)

theorem tracks_push {e : Element} (hopen : e ≠ .plain '{') (hclose : e ≠ .plain '}')
    (hcomma : e ≠ .plain ',') (depth : b.depth + s = b.openGroups)
    (groups : b.openGroups = ds.length) (low : ds.length ≤ s)
    (holds : HoldsAll s strict c ds c' ds') :
    Tracks b strict (step ⟨b.depth, c, ds⟩ e) (step ⟨b.openGroups, c', ds'⟩ e) := by
  obtain ⟨a, ha⟩ := exists_step_eq_push hopen hclose hcomma
  rw [ha, ha]
  exact tracks_outside depth groups low (holds.append_self [[a]])

end

theorem Tracks.mono {strict' : Prop} (h : Tracks b strict x x') (himp : strict' → strict) :
    Tracks b strict' x x' := by
  cases h with
  | intro depth groups low full holds => exact .intro depth groups low full (holds.mono himp)

/-- Escaping a brace that is stray here keeps the two expansions together; a comma that is captive
    here is left out of the words. -/
theorem Tracks.step (h : Tracks b strict x x') (e : Element) :
    Tracks (b.after e) (strict ∨ b.IsCaptive e) (x.step e) (x'.step (b.settle e)) := by
  obtain @⟨s, c, c', ds, ds', above, depth, groups, low, full, holds⟩ := h
  cases above with
  | cons g above =>
      have hlength : (g :: above).length = above.length + 1 := rfl
      have hfull := full (List.cons_ne_nil g above)
      have hfree : ¬b.IsCaptive e := fun h => by
        have hdepth := h.2.1
        omega
      have hsettle : b.settle e = e := if_neg fun h => by omega
      rw [hsettle]
      exact (tracks_inside depth groups hfull holds e).mono fun h => h.resolve_right hfree
  | nil =>
      rw [List.length_nil, Nat.add_zero] at groups
      by_cases hcomma : e = .plain ','
      · subst hcomma
        exact tracks_comma depth groups low holds
      suffices hstep : Tracks (b.after e) strict (Expansion.step ⟨b.depth, c, ds⟩ e)
          (Expansion.step ⟨b.openGroups, c', ds'⟩ (b.settle e)) from
        hstep.mono fun h => h.resolve_right fun hc => hcomma hc.1
      by_cases hopen : e = .plain '{'
      · subst hopen
        exact tracks_open depth groups low holds
      by_cases hclose : e = .plain '}'
      · subst hclose
        cases ds with
        | nil =>
            cases holds with
            | outermost holds =>
                rw [Braces.settle, if_pos ⟨rfl, groups⟩]
                exact tracks_stray depth groups holds
        | cons d ds =>
            have hstray : b.openGroups ≠ 0 := by simp [groups]
            rw [Braces.settle, if_neg fun h => hstray h.2]
            exact tracks_close depth groups low holds
      · rw [Braces.settle_of_ne hclose, Braces.after_of_ne hopen hclose]
        exact tracks_push hopen hclose hcomma depth groups low holds

/-- All along a pattern, escaping the stray braces leaves parts out of the words, and commas with them
    if some are captive. -/
theorem Tracks.foldl (h : Tracks b strict x x') (es : List Element) :
    Tracks (es.foldl Braces.after b) (strict ∨ captiveCommas b es ≠ 0) (es.foldl Expansion.step x)
      ((settleAll b es).foldl Expansion.step x') := by
  induction es generalizing b strict x x' with
  | nil => exact h.mono fun hs => hs.resolve_right fun hne => hne rfl
  | cons e es ih =>
      refine (ih (h.step e)).mono fun hs => ?_
      rw [captiveCommas] at hs
      by_cases hcaptive : b.IsCaptive e
      · exact .inl (.inr hcaptive)
      · rw [if_neg hcaptive, Nat.zero_add] at hs
        exact hs.imp .inl id

/-! ## Words -/

/-- The groups above the hole append words to it when the pattern ends. -/
theorem exists_words_fill (above : List Choice) : ∃ ws, ∀ depth hole below,
    (fill depth hole below above).words = closeAll (hole.append ws) below := by
  cases above with
  | nil => exact ⟨[[]], fun depth hole below => by rw [Choice.append_self]; rfl⟩
  | cons g above =>
      simp only [fill, words]
      induction above generalizing g with
      | nil => exact ⟨g.words, fun _ _ _ => rfl⟩
      | cons d above ih => exact ih (d.append g.words)

theorem Tracks.mem_words (h : Tracks b strict x x') (hstrict : strict) :
    ∀ w ∈ x.words, ∃ u r r', w = u ++ r ∧ u ++ r' ∈ x'.words ∧ Trims strict r' r ∧
      .literal '}' ∈ u := by
  obtain @⟨s, c, c', ds, ds', above, -, -, low, -, holds⟩ := h
  obtain ⟨ws, hws⟩ := exists_words_fill above
  rw [hws, hws]
  exact (holds.append_self ws).mem_closeAll low hstrict

end Expansion

/-- A word of a pattern with a captive comma has parts behind a stray brace, a comma among them,
    that are left out in a word of the pattern with its stray braces escaped. -/
theorem exists_mem_expand_escapeStrays {p : List Char}
    (hcaptive : captiveCommas .none (elements p) ≠ 0) {w : Word} (hw : w ∈ expand p) :
    ∃ u r r', w = u ++ r ∧ u ++ r' ∈ expand (escapeStrays 0 p) ∧ Trims True r' r ∧
      .literal '}' ∈ u := by
  have htracks := Expansion.tracks_start.foldl (elements p)
  rw [expand, expandFrom_eq] at hw ⊢
  obtain ⟨u, r, r', hw, hmem, htrims, hbrace⟩ := htracks.mem_words (.inr hcaptive) w hw
  have helements := elements_escapeStrays .none p
  exact ⟨u, r, r', hw, helements ▸ hmem, htrims.mono fun _ => .inr hcaptive, hbrace⟩

/-! ## Patterns without separators -/

/-- All words of the group are flat. -/
def Choice.IsFlat (c : Choice) : Prop := ∀ w ∈ c.words, w.IsFlat

theorem Choice.IsFlat.append {c : Choice} (h : c.IsFlat) {ws : List Word}
    (hws : ∀ w ∈ ws, w.IsFlat) : (c.append ws).IsFlat := by
  intro w hw
  rw [Choice.words, List.mem_append] at hw
  rcases hw with hw | hw
  · exact h w (List.mem_append_left _ hw)
  · obtain ⟨u, hu, v, hv, rfl⟩ := mem_append_current.1 hw
    intro a ha
    rcases List.mem_append.1 ha with ha | ha
    · exact h u (List.mem_append_right _ hu) a ha
    · exact hws v hv a ha

theorem Choice.IsFlat.push {c : Choice} (h : c.IsFlat) {a : Atom}
    (ha : ∀ guarded, a ≠ .separator guarded) : (c.push a).IsFlat := by
  refine h.append fun w hw => ?_
  rw [List.mem_singleton.1 hw]
  intro a' ha'
  rw [List.mem_singleton.1 ha']
  exact ha

theorem Choice.isFlat_opened : Choice.opened.IsFlat := by
  intro w hw
  rw [List.mem_singleton.1 hw]
  exact nofun

theorem Choice.IsFlat.next {c : Choice} (h : c.IsFlat) : c.next.IsFlat := by
  intro w hw
  rw [Choice.words, List.mem_append] at hw
  rcases hw with hw | hw
  · exact h w hw
  · exact Choice.isFlat_opened w hw

theorem isFlat_of_mem_closeAll {c : Choice} {ds : List Choice} (hc : c.IsFlat)
    (hds : ∀ d ∈ ds, d.IsFlat) : ∀ w ∈ closeAll c ds, w.IsFlat := by
  induction ds generalizing c with
  | nil => exact hc
  | cons d ds ih =>
      have hd := hds d List.mem_cons_self
      exact ih (hd.append hc) fun d' hd' => hds d' (List.mem_cons_of_mem _ hd')

namespace Expansion

/-- All words of all groups are flat. -/
structure IsFlat (x : Expansion) : Prop where
  choice : x.choice.IsFlat
  outer : ∀ c ∈ x.outer, c.IsFlat

theorem IsFlat.push {x : Expansion} (h : x.IsFlat) {a : Atom}
    (ha : ∀ guarded, a ≠ .separator guarded) : (x.push a).IsFlat :=
  ⟨h.choice.push ha, h.outer⟩

theorem IsFlat.step {x : Expansion} (h : x.IsFlat) {e : Element}
    (he : ∀ dotted, e ≠ .separator dotted) : (x.step e).IsFlat := by
  unfold Expansion.step
  split
  · exact h.push nofun
  · exact absurd rfl (he _)
  · exact h.push nofun
  · exact h.push nofun
  · exact ⟨Choice.isFlat_opened, List.forall_mem_cons.2 ⟨h.choice, h.outer⟩⟩
  · split
    · exact ⟨h.choice.push nofun, nofun⟩
    · next houter =>
      have hall := h.outer
      rw [houter, List.forall_mem_cons] at hall
      exact ⟨hall.1.append h.choice, hall.2⟩
  · split
    · exact ⟨h.choice.next, h.outer⟩
    · exact h.push nofun

theorem IsFlat.foldl {x : Expansion} (h : x.IsFlat) {es : List Element}
    (hes : ∀ e ∈ es, ∀ dotted, e ≠ .separator dotted) : (es.foldl Expansion.step x).IsFlat := by
  induction es generalizing x with
  | nil => exact h
  | cons e es ih =>
      exact ih (h.step (hes e List.mem_cons_self)) fun e' he' => hes e' (List.mem_cons_of_mem _ he')

end Expansion

theorem isFlat_of_mem_expand {p : List Char} (hsep : '/' ∉ unescaped p) {w : Word}
    (hw : w ∈ expand p) : w.IsFlat := by
  have hes : ∀ e ∈ elements p, ∀ dotted, e ≠ .separator dotted := by
    rintro e he dotted rfl
    refine hsep ?_
    rw [← map_mark_elements]
    exact List.mem_map_of_mem he
  have hstart : Expansion.start.IsFlat := ⟨Choice.isFlat_opened, nofun⟩
  have hflat := hstart.foldl hes
  rw [expand, expandFrom_eq] at hw
  exact isFlat_of_mem_closeAll hflat.choice hflat.outer w hw

/-! ## Names -/

/-- With a captive comma, each name of the pattern has a shorter one that the pattern with its stray
    braces escaped names. -/
theorem exists_names_escapeStrays {p : List Char} (hsep : '/' ∉ unescaped p)
    (hcaptive : captiveCommas .none (elements p) ≠ 0) {name : List Char} (h : Names p name) :
    ∃ shorter, Names (escapeStrays 0 p) shorter ∧ shorter.length < name.length := by
  obtain ⟨hhead, w, hw, hreads⟩ := h
  have hflat := isFlat_of_mem_expand hsep hw
  obtain ⟨u, r, r', rfl, hmem, htrims, hbrace⟩ := exists_mem_expand_escapeStrays hcaptive hw
  obtain ⟨m, hu, hr⟩ := (Word.reads_append u r name []).1 hreads
  obtain ⟨k, rfl, hk, hliteral⟩ :=
    Word.IsFlat.exists_reads (fun a ha => hflat a (List.mem_append_left _ ha)) hu
  obtain ⟨m', hr', hle⟩ := Word.exists_reads_of_sublist htrims.sublist
    (fun a ha => hflat a (List.mem_append_right _ ha)) hr
  have hcommas := htrims.commas trivial
  refine ⟨k ++ m', ⟨fun hdot => ?_, u ++ r', hmem, ?_⟩, ?_⟩
  · -- the stray brace stands in front of all that is left out
    obtain ⟨c, cs, rfl⟩ := List.exists_cons_of_ne_nil (hliteral '}' hbrace)
    exact hhead fun hp => hdot ((head?_escapeStrays 0 p).2 hp)
  · exact (Word.reads_append u r' _ []).2 ⟨m', hk m', hr'⟩
  · rw [List.length_append, List.length_append]
    omega

theorem not_names_of_captive {p : List Char} (hsep : '/' ∉ unescaped p)
    (hcaptive : captiveCommas .none (elements p) ≠ 0)
    (hsame : ∀ name, Names (escapeStrays 0 p) name → Names p name) (name : List Char) :
    ¬Names p name := by
  intro h
  -- the shorter name is a name of the pattern as well, and has a shorter one in turn
  obtain ⟨shorter, hshorter, hlt⟩ := exists_names_escapeStrays hsep hcaptive h
  exact not_names_of_captive hsep hcaptive hsame shorter (hsame shorter hshorter)
termination_by name.length

theorem expression_congr {p q : List Char} (hp : '[' ∉ unescaped p) (hq : '[' ∉ unescaped q)
    (h : regexChars p = regexChars q) : expression p = expression q := by
  have hread := ofChars_regexChars hp
  rw [h, ofChars_regexChars hq] at hread
  exact (Except.ok.inj hread).symm

/-- **A stray brace is only a literal exactly if it holds no comma captive.** With a backslash before
    each stray brace a pattern has the same regular expression exactly if none of its commas is
    captive, and then matches the same names. With a captive comma it matches other names, unless it
    has separators or matches nothing at all. -/
theorem exists_ofPattern_withStraysEscaped {pattern : String}
    (h : '[' ∉ unescaped pattern.toList) :
    ∃ m m', Matcher.ofPattern pattern = .ok m ∧
      Matcher.ofPattern (withStraysEscaped pattern) = .ok m' ∧
      (m'.regex = m.regex ↔ captiveCommas .none (elements pattern.toList) = 0) ∧
      (captiveCommas .none (elements pattern.toList) = 0 →
        ∀ name, m'.matches? name = m.matches? name) ∧
      (captiveCommas .none (elements pattern.toList) ≠ 0 → '/' ∉ unescaped pattern.toList →
        (∃ name, m.matches? name = true) →
          ∃ name, m'.matches? name = true ∧ m.matches? name = false) := by
  have htext : (withStraysEscaped pattern).toList = escapeStrays 0 pattern.toList :=
    String.toList_ofList
  have h' : '[' ∉ unescaped (withStraysEscaped pattern).toList := fun hmem =>
    h (mem_unescaped_of_escapeStrays (by decide) (htext ▸ hmem))
  have hregex := regexChars_escapeStrays_eq_iff pattern.toList
  rw [← htext] at hregex
  refine ⟨_, _, ofPattern_of_bracketFree h, ofPattern_of_bracketFree h', ?_, ?_, ?_⟩
  · rw [← hregex]
    exact String.ofList_inj
  · intro hfree name
    have hmatches (p : String) : (compiled p).matches? name =
        (expression p.toList).matchesChars name.toList := rfl
    rw [hmatches, hmatches, expression_congr h' h (hregex.2 hfree)]
  · rintro hcaptive hsep ⟨name, hname⟩
    refine Classical.byContradiction fun hnone => ?_
    refine not_names_of_captive hsep hcaptive (fun n hn => ?_) name.toList
      ((matches?_compiled_iff pattern name).1 hname)
    have hmatches : (compiled (withStraysEscaped pattern)).matches? (String.ofList n) = true := by
      rwa [matches?_compiled_iff, htext, String.toList_ofList]
    have hmatches' : (compiled pattern).matches? (String.ofList n) = true :=
      eq_true_of_ne_false fun hfalse => hnone ⟨_, hmatches, hfalse⟩
    rwa [matches?_compiled_iff, String.toList_ofList] at hmatches'

theorem exists_name_of_nested_groups :
    '[' ∉ unescaped "a\x7d\x7bb,\x7bc,d\x7d\x7d".toList ∧
      captiveCommas .none (elements "a\x7d\x7bb,\x7bc,d\x7d\x7d".toList) = 1 ∧
      ∃ m m', Matcher.ofPattern "a\x7d\x7bb,\x7bc,d\x7d\x7d" = .ok m ∧
        Matcher.ofPattern (withStraysEscaped "a\x7d\x7bb,\x7bc,d\x7d\x7d") = .ok m' ∧
        m'.regex ≠ m.regex ∧ ∃ name, m'.matches? name = true ∧ m.matches? name = false := by
  have hbracket : '[' ∉ unescaped "a\x7d\x7bb,\x7bc,d\x7d\x7d".toList := by decide
  have hcaptive : captiveCommas .none (elements "a\x7d\x7bb,\x7bc,d\x7d\x7d".toList) = 1 := by
    decide
  have hne : captiveCommas .none (elements "a\x7d\x7bb,\x7bc,d\x7d\x7d".toList) ≠ 0 := by
    decide
  refine ⟨hbracket, hcaptive, ?_⟩
  obtain ⟨m, m', hm, hm', hregex, -, hdiffer⟩ := exists_ofPattern_withStraysEscaped hbracket
  refine ⟨m, m', hm, hm', mt hregex.1 hne, hdiffer hne (by decide) ⟨"a\x7db,d", ?_⟩⟩
  rw [ofPattern_of_bracketFree hbracket] at hm
  cases hm
  decide

/-- The comma of a group behind a stray brace divides alternatives only once the brace is
    escaped. -/
theorem not_forall_matches_withStraysEscaped :
    ¬∀ (pattern name : String) (m m' : Matcher), '[' ∉ unescaped pattern.toList →
      Matcher.ofPattern pattern = .ok m → Matcher.ofPattern (withStraysEscaped pattern) = .ok m' →
        m'.matches? name = m.matches? name := by
  intro h
  have hsame := h "\x7d\x7ba,b\x7d" "\x7da" _ _ (by decide) rfl rfl
  exact absurd hsame (by decide)

end DirGlob.Pattern
