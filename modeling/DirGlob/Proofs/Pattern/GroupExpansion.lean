import DirGlob.Proofs.Pattern.Expansion

set_option autoImplicit false

/-! # Expanding a group of alternatives

What a group does to the expansion of a pattern does not depend on what is around it. The group
that is open where the braces stand is a *hole* (`Expansion.fill`), and an element that is read in a
group inside the hole only appends words to the hole (`Expansion.Leads`). So an alternative appends
its own words, and the braces with all alternatives append the words of each of them
(`foldl_alternative`, `foldl_braces`). -/

namespace DirGlob.Pattern

/-! ## Well-formed braces -/

/-- With this many groups open, every closing brace of the text closes one. -/
def closesOpened : Nat → List Char → Bool
  | _, [] => true
  | n, '{' :: cs => closesOpened (n + 1) cs
  | 0, '}' :: _ => false
  | n + 1, '}' :: cs => closesOpened n cs
  | n, _ :: cs => closesOpened n cs

/-- With this many of its own groups open, the text closes them and no others, and it has no comma
    outside of them. -/
def isBalanced : Nat → List Char → Bool
  | n, [] => n = 0
  | n, '{' :: cs => isBalanced (n + 1) cs
  | 0, '}' :: _ => false
  | n + 1, '}' :: cs => isBalanced n cs
  | 0, ',' :: _ => false
  | n, _ :: cs => isBalanced n cs

/-- A text that can stand between the braces as one alternative. -/
structure IsAlternative (a : List Char) : Prop where
  balanced : isBalanced 0 (unescaped a) = true
  unescaping : endsInEscape a = false
  undotted : a.head? ≠ some '.'

instance (a : List Char) : Decidable (IsAlternative a) :=
  decidable_of_iff
    (isBalanced 0 (unescaped a) = true ∧ endsInEscape a = false ∧ a.head? ≠ some '.')
    ⟨fun ⟨balanced, unescaping, undotted⟩ => ⟨balanced, unescaping, undotted⟩,
      fun h => ⟨h.balanced, h.unescaping, h.undotted⟩⟩

theorem closesOpened_mark {e : Element} (hopen : e ≠ .plain '{') (hclose : e ≠ .plain '}')
    (n : Nat) (cs : List Char) : closesOpened n (e.mark :: cs) = closesOpened n cs := by
  rw [Ne, ← Element.mark_eq_iff (by decide) (by decide)] at hopen hclose
  rw [closesOpened.eq_def]
  split <;> simp_all

theorem isBalanced_mark {e : Element} (hopen : e ≠ .plain '{') (hclose : e ≠ .plain '}')
    (hcomma : e ≠ .plain ',') (n : Nat) (cs : List Char) :
    isBalanced n (e.mark :: cs) = isBalanced n cs := by
  rw [Ne, ← Element.mark_eq_iff (by decide) (by decide)] at hopen hclose hcomma
  rw [isBalanced.eq_def]
  split <;> simp_all

/-! ## Texts of groups -/

/-- The text between the braces of a group. -/
def alternation (alternatives : List (List Char)) : List Char := [','].intercalate alternatives

theorem alternation_singleton (a : List Char) : alternation [a] = a := List.intercalate_singleton

theorem alternation_cons_cons (a b : List Char) (as : List (List Char)) :
    alternation (a :: b :: as) = a ++ ',' :: alternation (b :: as) := by
  rw [alternation, List.intercalate_cons_cons, List.append_assoc, List.singleton_append]
  rfl

theorem endsInEscape_alternation {alternatives : List (List Char)}
    (h : ∀ a ∈ alternatives, IsAlternative a) :
    endsInEscape (alternation alternatives) = false := by
  induction alternatives with
  | nil => rfl
  | cons a as ih =>
      have ha : endsInEscape a = false := (h a List.mem_cons_self).unescaping
      cases as with
      | nil => rw [alternation_singleton, ha]
      | cons b as =>
          rw [alternation_cons_cons, endsInEscape_append ha, endsInEscape_cons (by decide)]
          exact ih fun a' ha' => h a' (List.mem_cons_of_mem _ ha')

theorem mem_unescaped_alternation {alternatives : List (List Char)}
    (h : ∀ a ∈ alternatives, IsAlternative a) {a : List Char} (ha : a ∈ alternatives) {c : Char}
    (hc : c ∈ unescaped a) : c ∈ unescaped (alternation alternatives) := by
  induction alternatives with
  | nil => cases ha
  | cons b bs ih =>
      have hb : endsInEscape b = false := (h b List.mem_cons_self).unescaping
      cases bs with
      | nil =>
          rw [List.mem_singleton] at ha
          rw [alternation_singleton, ← ha]
          exact hc
      | cons d ds =>
          rw [alternation_cons_cons, unescaped_append hb, unescaped_cons (by decide),
            List.mem_append, List.mem_cons]
          rcases List.mem_cons.1 ha with rfl | ha
          · exact .inl hc
          · exact .inr (.inr (ih (fun e he => h e (List.mem_cons_of_mem _ he)) ha))

theorem elements_alternation {a b : List Char} {as : List (List Char)} (ha : IsAlternative a) :
    elements (alternation (a :: b :: as)) =
      elements a ++ .plain ',' :: elements (alternation (b :: as)) := by
  rw [alternation_cons_cons, elements_append ha.unescaping (by simp), elements_cons (by decide)]
  rfl

theorem elements_braces {alternatives : List (List Char)}
    (h : ∀ a ∈ alternatives, IsAlternative a) :
    elements ('{' :: alternation alternatives ++ ['}']) =
      .plain '{' :: (elements (alternation alternatives) ++ [.plain '}']) := by
  rw [List.cons_append, elements_cons (by decide),
    elements_append (endsInEscape_alternation h) (by simp)]
  rfl

/-! ## Appending words -/

theorem Choice.append_self (c : Choice) : c.append [[]] = c := by
  simp [Choice.append]

theorem Choice.append_append (c : Choice) (us vs : List Word) :
    (c.append us).append vs = c.append (us.flatMap fun u => vs.map (u ++ ·)) := by
  simp [Choice.append, List.flatMap_assoc, List.map_flatMap, List.flatMap_map, Function.comp_def]

/-! ## Steps -/

namespace Expansion

theorem exists_step_eq_push {e : Element} (hopen : e ≠ .plain '{') (hclose : e ≠ .plain '}')
    (hcomma : e ≠ .plain ',') : ∃ a, ∀ x : Expansion, x.step e = x.push a := by
  cases e with
  | escaped c => exact ⟨.literal c, fun _ => rfl⟩
  | separator dotted => exact ⟨.separator (!dotted), fun _ => rfl⟩
  | plain c =>
      by_cases hstar : c = '*'
      · exact ⟨.run, fun _ => hstar ▸ rfl⟩
      by_cases hone : c = '?'
      · exact ⟨.one, fun _ => hone ▸ rfl⟩
      refine ⟨.literal c, fun x => ?_⟩
      have hliteral : ¬(c = ',' ∧ x.depth > 0) := fun h => hcomma (congrArg _ h.1)
      rw [step_plain x hstar hone (hopen ∘ congrArg _) (hclose ∘ congrArg _), if_neg hliteral]

/-! ## A hole among the groups -/

/-- The expansion in which the groups `above` are open inside the hole and the groups `below`
    around it. -/
def fill (depth : Int) (hole : Choice) (below : List Choice) : List Choice → Expansion
  | [] => ⟨depth, hole, below⟩
  | c :: above => ⟨depth, c, above ++ hole :: below⟩

/-- From the groups `above`, the elements lead to the groups `inside`, whatever the hole and the
    groups around it are; to the hole they only append words. -/
def Leads (above : List Choice) (es : List Element) (inside : List Choice) : Prop :=
  ∃ ws, ∀ (n : Nat) (hole : Choice) (below : List Choice),
    es.foldl step (fill (n + above.length) hole below above) =
      fill (n + inside.length) (hole.append ws) below inside

theorem leads_nil (above : List Choice) : Leads above [] above :=
  ⟨[[]], fun _ hole _ => by rw [Choice.append_self, List.foldl_nil]⟩

theorem Leads.cons {above inside last : List Choice} {e : Element} {es : List Element}
    (he : Leads above [e] inside) (hes : Leads inside es last) : Leads above (e :: es) last := by
  obtain ⟨us, hus⟩ := he
  obtain ⟨vs, hvs⟩ := hes
  refine ⟨us.flatMap fun u => vs.map (u ++ ·), fun n hole below => ?_⟩
  rw [← Choice.append_append, ← hvs n, ← hus n]
  rfl

theorem exists_leads_push {e : Element} (hopen : e ≠ .plain '{') (hclose : e ≠ .plain '}')
    (hcomma : e ≠ .plain ',') (above : List Choice) :
    ∃ inside, inside.length = above.length ∧ Leads above [e] inside := by
  obtain ⟨a, ha⟩ := exists_step_eq_push hopen hclose hcomma
  cases above with
  | nil => exact ⟨[], rfl, [[a]], fun _ _ _ => ha _⟩
  | cons c above =>
      refine ⟨c.push a :: above, rfl, [[]], fun n hole below => ?_⟩
      rw [Choice.append_self]
      exact ha _

theorem leads_open (above : List Choice) : Leads above [.plain '{'] (.opened :: above) := by
  refine ⟨[[]], fun n hole below => ?_⟩
  rw [Choice.append_self, List.length_cons]
  cases above <;> rfl

theorem exists_leads_close (c : Choice) (above : List Choice) :
    ∃ inside, inside.length = above.length ∧ Leads (c :: above) [.plain '}'] inside := by
  have hdepth (n : Nat) : (n + (c :: above).length : Int) - 1 = n + above.length := by
    rw [List.length_cons]
    omega
  cases above with
  | nil =>
      refine ⟨[], rfl, c.words, fun n hole below => ?_⟩
      exact congrArg (fill · (hole.append c.words) below []) (hdepth n)
  | cons d above =>
      refine ⟨d.append c.words :: above, rfl, [[]], fun n hole below => ?_⟩
      rw [Choice.append_self]
      exact congrArg (fill · hole below (d.append c.words :: above)) (hdepth n)

theorem leads_comma (c : Choice) (above : List Choice) :
    Leads (c :: above) [.plain ','] (c.next :: above) := by
  refine ⟨[[]], fun n hole below => ?_⟩
  have hpos : (n + (c :: above).length : Int) > 0 := by
    rw [List.length_cons]
    omega
  rw [Choice.append_self]
  exact step_comma (fill _ hole below (c :: above)) hpos

/-- Balanced elements lead out of their own groups. -/
theorem leads_of_isBalanced {es : List Element} {above : List Choice}
    (h : isBalanced above.length (es.map Element.mark) = true) : Leads above es [] := by
  induction es generalizing above with
  | nil =>
      have hnil : above.length = 0 := by simpa [isBalanced] using h
      rw [List.length_eq_zero_iff.1 hnil]
      exact leads_nil []
  | cons e es ih =>
      -- `above` are the groups of the alternative itself; a brace or a comma stays inside of them
      rw [List.map_cons] at h
      by_cases hopen : e = .plain '{'
      · subst hopen
        exact (leads_open above).cons (ih h)
      by_cases hclose : e = .plain '}'
      · subst hclose
        cases above with
        | nil => simp [Element.mark, isBalanced] at h
        | cons c above =>
            obtain ⟨inside, hlength, hleads⟩ := exists_leads_close c above
            exact hleads.cons (ih (hlength ▸ h))
      by_cases hcomma : e = .plain ','
      · subst hcomma
        cases above with
        | nil => simp [Element.mark, isBalanced] at h
        | cons c above => exact (leads_comma c above).cons (ih h)
      · obtain ⟨inside, hlength, hleads⟩ := exists_leads_push hopen hclose hcomma above
        rw [isBalanced_mark hopen hclose hcomma] at h
        exact hleads.cons (ih (hlength ▸ h))

/-- An alternative appends the words it expands to. -/
theorem foldl_alternative {a : List Char} (h : IsAlternative a) (n : Nat) (hole : Choice)
    (below : List Choice) :
    (elements a).foldl step ⟨n, hole, below⟩ = ⟨n, hole.append (expand a), below⟩ := by
  have hbalanced : isBalanced ([] : List Choice).length ((elements a).map Element.mark) = true := by
    rw [map_mark_elements]
    exact h.balanced
  -- the words do not depend on the hole, so the expansion of the alternative alone shows them
  obtain ⟨ws, hws⟩ := leads_of_isBalanced hbalanced
  have hexpand : expand a = ws := by
    rw [expand, expandFrom_eq]
    rw [show (elements a).foldl step ⟨0, .opened, []⟩ = ⟨0, Choice.append .opened ws, []⟩ from
      hws 0 .opened []]
    simp [words, closeAll, Choice.words, Choice.append, Choice.opened]
  rw [hexpand]
  exact hws n hole below

/-- Between braces the words of all alternatives are collected. -/
theorem exists_foldl_alternation {alternatives : List (List Char)}
    (h : ∀ a ∈ alternatives, IsAlternative a) (hne : alternatives ≠ []) (n : Nat)
    (complete : List Word) (below : List Choice) :
    ∃ c : Choice, c.words = complete ++ alternatives.flatMap expand ∧
      (elements (alternation alternatives)).foldl step ⟨(n + 1 : Nat), ⟨complete, [[]]⟩, below⟩ =
        ⟨(n + 1 : Nat), c, below⟩ := by
  induction alternatives generalizing complete with
  | nil => exact absurd rfl hne
  | cons a as ih =>
      have ha : IsAlternative a := h a List.mem_cons_self
      have hwords : (Choice.append ⟨complete, [[]]⟩ (expand a)).words = complete ++ expand a := by
        simp [Choice.words, Choice.append]
      cases as with
      | nil =>
          refine ⟨Choice.append ⟨complete, [[]]⟩ (expand a), ?_, ?_⟩
          · rw [hwords, List.flatMap_cons, List.flatMap_nil, List.append_nil]
          · rw [alternation_singleton]
            exact foldl_alternative ha (n + 1) _ below
      | cons b as =>
          obtain ⟨c, hc, hfoldl⟩ := ih (fun a' ha' => h a' (List.mem_cons_of_mem _ ha'))
            (List.cons_ne_nil b as) (complete ++ expand a)
          refine ⟨c, ?_, ?_⟩
          · rw [hc, List.append_assoc, ← List.flatMap_cons]
          · rw [elements_alternation ha, List.foldl_append, foldl_alternative ha, List.foldl_cons,
              step_comma _ (by simp only; omega), Choice.next, hwords]
            exact hfoldl

/-- A whole group appends the words of all its alternatives. -/
theorem foldl_braces {alternatives : List (List Char)} (h : ∀ a ∈ alternatives, IsAlternative a)
    (hne : alternatives ≠ []) (n : Nat) (hole : Choice) (below : List Choice) :
    (elements ('{' :: alternation alternatives ++ ['}'])).foldl step ⟨n, hole, below⟩ =
      ⟨n, hole.append (alternatives.flatMap expand), below⟩ := by
  obtain ⟨c, hc, hfoldl⟩ := exists_foldl_alternation h hne n [] (hole :: below)
  have hopen : step ⟨n, hole, below⟩ (.plain '{') =
      ⟨(n + 1 : Nat), ⟨[], [[]]⟩, hole :: below⟩ := rfl
  have hdepth : ((n + 1 : Nat) : Int) - 1 = n := by omega
  rw [elements_braces h, List.foldl_cons, hopen, List.foldl_append, hfoldl,
    ← List.nil_append (alternatives.flatMap expand), ← hc, ← hdepth]
  rfl

end Expansion

end DirGlob.Pattern
