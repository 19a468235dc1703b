import DirGlob.Proofs.Pattern.GroupExpansion
import DirGlob.Proofs.Pattern.Matching

set_option autoImplicit false

/-! # A group of braces is a union

A pattern with a group in it matches what one of the patterns matches in which an alternative stands
in place of the group. What comes before and behind the group may itself open and close groups
around it, so the words of the pattern are no product of three parts.

Behind the braces, the hole holds the words of all alternatives; behind a single alternative, those
of that alternative. From there on, the rest of the pattern keeps the one hole the union of the
others, also where it closes the hole (`Expansion.distributes_of_closesOpened`). -/

namespace DirGlob.Pattern

/-! ## Unions of choices -/

section Union

variable {α : Type} {as : List α}

/-- The choice has the words that the choices of the family have together. -/
structure Choice.IsUnion (c : Choice) (as : List α) (f : α → Choice) : Prop where
  complete : ∀ w, w ∈ c.complete ↔ ∃ a ∈ as, w ∈ (f a).complete
  current : ∀ w, w ∈ c.current ↔ ∃ a ∈ as, w ∈ (f a).current

theorem exists_mem_and_iff (hne : as ≠ []) (p : Prop) : (∃ a ∈ as, p) ↔ p := by
  obtain ⟨a, ha⟩ := List.exists_mem_of_ne_nil as hne
  exact ⟨fun ⟨_, _, h⟩ => h, fun h => ⟨a, ha, h⟩⟩

namespace Choice

theorem isUnion_append_words (hne : as ≠ []) (c : Choice) {ws : List Word} {g : α → List Word}
    (h : ∀ w, w ∈ ws ↔ ∃ a ∈ as, w ∈ g a) : (c.append ws).IsUnion as fun a => c.append (g a) := by
  refine ⟨fun w => (exists_mem_and_iff hne _).symm, fun w => ?_⟩
  simp only [append, List.mem_flatMap, List.mem_map, h]
  constructor
  · intro hex
    obtain ⟨u, hu, v, ⟨a, ha, hv⟩, rfl⟩ := hex
    exact ⟨a, ha, u, hu, v, hv, rfl⟩
  · intro hex
    obtain ⟨a, ha, u, hu, v, hv, rfl⟩ := hex
    exact ⟨u, hu, v, ⟨a, ha, hv⟩, rfl⟩

theorem IsUnion.append {c : Choice} {f : α → Choice} (h : c.IsUnion as f) (ws : List Word) :
    (c.append ws).IsUnion as fun a => (f a).append ws := by
  refine ⟨h.complete, fun w => ?_⟩
  simp only [Choice.append, List.mem_flatMap, h.current]
  constructor
  · intro hex
    obtain ⟨u, ⟨a, ha, hu⟩, hw⟩ := hex
    exact ⟨a, ha, u, hu, hw⟩
  · intro hex
    obtain ⟨a, ha, u, hu, hw⟩ := hex
    exact ⟨u, ⟨a, ha, hu⟩, hw⟩

theorem IsUnion.mem_words_iff {c : Choice} {f : α → Choice} (h : c.IsUnion as f) (w : Word) :
    w ∈ c.words ↔ ∃ a ∈ as, w ∈ (f a).words := by
  simp only [words, List.mem_append, h.complete, h.current, and_or_left, exists_or]

theorem IsUnion.next {c : Choice} {f : α → Choice} (hne : as ≠ []) (h : c.IsUnion as f) :
    c.next.IsUnion as fun a => (f a).next :=
  ⟨h.mem_words_iff, fun _ => (exists_mem_and_iff hne _).symm⟩

/-- A group that is closed hands the union on to the group around it. -/
theorem IsUnion.close {c : Choice} {f : α → Choice} (hne : as ≠ []) (h : c.IsUnion as f)
    (d : Choice) : (d.append c.words).IsUnion as fun a => d.append (f a).words :=
  isUnion_append_words hne d h.mem_words_iff

end Choice

theorem mem_closeAll_iff {c : Choice} {f : α → Choice} (hne : as ≠ []) (h : c.IsUnion as f)
    (below : List Choice) (w : Word) :
    w ∈ closeAll c below ↔ ∃ a ∈ as, w ∈ closeAll (f a) below := by
  induction below generalizing c f with
  | nil => exact h.mem_words_iff w
  | cons d below ih => exact ih (h.close hne d)

namespace Expansion

theorem mem_words_fill_iff {hole : Choice} {f : α → Choice} (hne : as ≠ [])
    (h : hole.IsUnion as f) (depth : Int) (below above : List Choice) (w : Word) :
    w ∈ (fill depth hole below above).words ↔
      ∃ a ∈ as, w ∈ (fill depth (f a) below above).words := by
  cases above with
  | nil => exact mem_closeAll_iff hne h below w
  | cons c above =>
      simp only [fill, words]
      induction above generalizing c with
      | nil => exact mem_closeAll_iff hne (h.append c.words) below w
      | cons d above ih => exact ih (d.append c.words)

/-- Behind groups `above` that are open inside the hole, and with the groups `below` around it, the
    elements give the words for a union of holes that they give for the holes of the union. -/
def Distributes (as : List α) (es : List Element) (below above : List Choice) : Prop :=
  ∀ (hole : Choice) (f : α → Choice), hole.IsUnion as f → ∀ w,
    w ∈ (es.foldl step (fill (below.length + above.length) hole below above)).words ↔
      ∃ a ∈ as, w ∈ (es.foldl step (fill (below.length + above.length) (f a) below above)).words

theorem Distributes.cons {below above below' above' : List Choice} {e : Element}
    {es : List Element} {F : Choice → Choice} (hes : Distributes as es below' above')
    (hF : ∀ (hole : Choice) (f : α → Choice), hole.IsUnion as f →
      (F hole).IsUnion as fun a => F (f a))
    (hstep : ∀ hole : Choice, step (fill (below.length + above.length) hole below above) e =
      fill (below'.length + above'.length) (F hole) below' above') :
    Distributes as (e :: es) below above := by
  intro hole f hunion w
  simp only [List.foldl_cons, hstep]
  exact hes (F hole) _ (hF hole f hunion) w

theorem Leads.distributes {above inside below : List Choice} {e : Element} {es : List Element}
    (he : Leads above [e] inside) (hes : Distributes as es below inside) :
    Distributes as (e :: es) below above := by
  obtain ⟨ws, hws⟩ := he
  exact hes.cons (fun _ _ hunion => hunion.append ws) fun hole => hws below.length hole below

theorem distributes_close {d : Choice} {below : List Choice} {es : List Element} (hne : as ≠ [])
    (hes : Distributes as es below []) : Distributes as (.plain '}' :: es) (d :: below) [] := by
  refine hes.cons (fun _ _ hunion => hunion.close hne d) fun hole => ?_
  have hdepth : ((d :: below).length + ([] : List Choice).length : Int) - 1 =
      below.length + ([] : List Choice).length := by
    rw [List.length_cons]
    omega
  exact congrArg (fill · (d.append hole.words) below []) hdepth

theorem distributes_comma {below : List Choice} {es : List Element} (hne : as ≠ [])
    (hes : Distributes as es below []) : Distributes as (.plain ',' :: es) below [] := by
  cases below with
  -- outside of all groups the comma is a character of its own
  | nil => exact hes.cons (fun _ _ hunion => hunion.append [[.literal ',']]) fun _ => rfl
  | cons d below =>
      refine hes.cons (F := Choice.next) (fun _ _ hunion => hunion.next hne) fun hole => ?_
      have hpos : ((d :: below).length + ([] : List Choice).length : Int) > 0 := by
        rw [List.length_cons]
        omega
      exact step_comma (fill _ hole (d :: below) []) hpos

/-- Elements that close no more groups than are open distribute over a union. -/
theorem distributes_of_closesOpened (hne : as ≠ []) {es : List Element} (below above : List Choice)
    (h : closesOpened (below.length + above.length) (es.map Element.mark) = true) :
    Distributes as es below above := by
  induction es generalizing below above with
  | nil => exact fun hole f hunion w => mem_words_fill_iff hne hunion _ below above w
  | cons e es ih =>
      rw [List.map_cons] at h
      by_cases hopen : e = .plain '{'
      · subst hopen
        exact (leads_open above).distributes (ih _ _ h)
      by_cases hclose : e = .plain '}'
      · subst hclose
        cases above with
        | cons c above =>
            obtain ⟨inside, hlength, hleads⟩ := exists_leads_close c above
            exact hleads.distributes (ih _ _ (hlength ▸ h))
        | nil =>
            -- the brace closes the hole; from here on the group around it is the hole
            cases below with
            | nil => cases h
            | cons d below => exact distributes_close hne (ih _ _ h)
      by_cases hcomma : e = .plain ','
      · subst hcomma
        rw [closesOpened_mark hopen hclose] at h
        cases above with
        | nil => exact distributes_comma hne (ih _ _ h)
        | cons c above => exact (leads_comma c above).distributes (ih _ _ h)
      · obtain ⟨inside, hlength, hleads⟩ := exists_leads_push hopen hclose hcomma above
        rw [closesOpened_mark hopen hclose, ← hlength] at h
        exact hleads.distributes (ih _ _ h)

end Expansion

end Union

/-! ## The groups around -/

namespace Expansion

/-- As many groups are open as the depth says, and the elements to come close no others. -/
structure Fits (x : Expansion) (es : List Element) : Prop where
  depth : x.depth = x.outer.length
  closes : closesOpened x.outer.length (es.map Element.mark) = true

theorem Fits.step {x : Expansion} {e : Element} {es : List Element} (h : x.Fits (e :: es)) :
    (x.step e).Fits es := by
  obtain ⟨depth, c, outer⟩ := x
  obtain ⟨hdepth, hcloses⟩ := h
  simp only [List.map_cons] at hdepth hcloses
  by_cases hopen : e = .plain '{'
  · subst hopen
    exact ⟨congrArg (· + 1) hdepth, hcloses⟩
  by_cases hclose : e = .plain '}'
  · subst hclose
    cases outer with
    | nil => cases hcloses
    | cons d outer =>
        refine ⟨?_, hcloses⟩
        show depth - 1 = outer.length
        rw [hdepth, List.length_cons]
        omega
  rw [closesOpened_mark hopen hclose] at hcloses
  by_cases hcomma : e = .plain ','
  · subst hcomma
    rw [step_plain _ (by decide) (by decide) (by decide) (by decide)]
    split <;> exact ⟨hdepth, hcloses⟩
  · obtain ⟨a, ha⟩ := exists_step_eq_push hopen hclose hcomma
    rw [ha]
    exact ⟨hdepth, hcloses⟩

theorem Fits.foldl {x : Expansion} {es fs : List Element} (h : x.Fits (es ++ fs)) :
    (es.foldl Expansion.step x).Fits fs := by
  induction es generalizing x with
  | nil => exact h
  | cons e es ih => exact ih h.step

end Expansion

/-! ## Patterns -/

/-- A pattern with a group of these alternatives in it. -/
def grouped (p : List Char) (alternatives : List (List Char)) (q : List Char) : List Char :=
  p ++ (('{' :: alternation alternatives ++ ['}']) ++ q)

theorem endsInEscape_braces {alternatives : List (List Char)}
    (h : ∀ a ∈ alternatives, IsAlternative a) :
    endsInEscape ('{' :: alternation alternatives ++ ['}']) = false := by
  rw [List.cons_append, endsInEscape_cons (by decide),
    endsInEscape_append (endsInEscape_alternation h)]
  rfl

theorem elements_grouped {p q : List Char} {alternatives : List (List Char)}
    (halt : ∀ a ∈ alternatives, IsAlternative a) (hp : endsInEscape p = false)
    (hq : q.head? ≠ some '.') :
    elements (grouped p alternatives q) =
      elements p ++ (elements ('{' :: alternation alternatives ++ ['}']) ++ elements q) := by
  rw [grouped, elements_append hp (by simp), elements_append (endsInEscape_braces halt) hq]

theorem IsAlternative.head?_append {a q : List Char} (h : IsAlternative a)
    (hq : q.head? ≠ some '.') : (a ++ q).head? ≠ some '.' := by
  cases a with
  | nil => exact hq
  | cons c cs => exact h.undotted

/-- The words of a pattern with a group are those of the patterns with one alternative each. -/
theorem mem_expand_grouped_iff {p q : List Char} {alternatives : List (List Char)}
    (hne : alternatives ≠ []) (halt : ∀ a ∈ alternatives, IsAlternative a)
    (hp : endsInEscape p = false) (hq : q.head? ≠ some '.')
    (hstray : closesOpened 0 (unescaped (grouped p alternatives q)) = true) (w : Word) :
    w ∈ expand (grouped p alternatives q) ↔ ∃ a ∈ alternatives, w ∈ expand (p ++ (a ++ q)) := by
  have hfits : Expansion.start.Fits (elements (grouped p alternatives q)) :=
    ⟨rfl, by rw [map_mark_elements]; exact hstray⟩
  rw [elements_grouped halt hp hq] at hfits
  -- the groups that are open where the braces stand
  have hbefore := hfits.foldl
  obtain ⟨c, outer, hp'⟩ : ∃ c outer, (elements p).foldl Expansion.step .start =
      ⟨outer.length, c, outer⟩ := ⟨_, _, by rw [← hbefore.depth]⟩
  rw [hp'] at hbefore
  have hbehind := hbefore.foldl
  rw [Expansion.foldl_braces halt hne] at hbehind
  -- behind the braces and behind the alternatives only the hole differs
  have hunion : (c.append (alternatives.flatMap expand)).IsUnion alternatives
      fun a => c.append (expand a) :=
    Choice.isUnion_append_words hne c fun _ => List.mem_flatMap
  have hsingle (a : List Char) (ha : a ∈ alternatives) : expand (p ++ (a ++ q)) =
      ((elements q).foldl Expansion.step ⟨outer.length, c.append (expand a), outer⟩).words := by
    rw [expand, expandFrom_eq, elements_append hp ((halt a ha).head?_append hq),
      elements_append (halt a ha).unescaping hq, List.foldl_append, List.foldl_append]
    rw [show (elements p).foldl Expansion.step ⟨0, .opened, []⟩ = _ from hp',
      Expansion.foldl_alternative (halt a ha)]
  have hgrouped : expand (grouped p alternatives q) = ((elements q).foldl Expansion.step
      ⟨outer.length, c.append (alternatives.flatMap expand), outer⟩).words := by
    rw [expand, expandFrom_eq, elements_grouped halt hp hq, List.foldl_append, List.foldl_append]
    rw [show (elements p).foldl Expansion.step ⟨0, .opened, []⟩ = _ from hp',
      Expansion.foldl_braces halt hne]
  rw [hgrouped]
  refine (Expansion.distributes_of_closesOpened hne outer [] hbehind.closes _ _ hunion w).trans ?_
  refine exists_congr fun a => and_congr_right fun ha => ?_
  rw [hsingle a ha]
  rfl

theorem names_grouped_iff {p q : List Char} {alternatives : List (List Char)}
    (hne : alternatives ≠ []) (halt : ∀ a ∈ alternatives, IsAlternative a)
    (hp : endsInEscape p = false) (hq : q.head? ≠ some '.')
    (hstray : closesOpened 0 (unescaped (grouped p alternatives q)) = true) (name : List Char) :
    Names (grouped p alternatives q) name ↔ ∃ a ∈ alternatives, Names (p ++ (a ++ q)) name := by
  have hdot (a : List Char) (ha : a ∈ alternatives) :
      (grouped p alternatives q).head? = some '.' ↔ (p ++ (a ++ q)).head? = some '.' := by
    cases p with
    | nil =>
        refine ⟨fun h => absurd h ?_, fun h => absurd h ((halt a ha).head?_append hq)⟩
        simp [grouped]
    | cons c cs => rfl
  have hmem := mem_expand_grouped_iff hne halt hp hq hstray
  constructor
  · intro hex
    obtain ⟨hhead, w, hw, hreads⟩ := hex
    obtain ⟨a, ha, hwa⟩ := (hmem w).1 hw
    exact ⟨a, ha, fun h => hhead fun h' => h ((hdot a ha).1 h'), w, hwa, hreads⟩
  · intro hex
    obtain ⟨a, ha, hhead, w, hwa, hreads⟩ := hex
    exact ⟨fun h => hhead fun h' => h ((hdot a ha).2 h'), w, (hmem w).2 ⟨a, ha, hwa⟩, hreads⟩

theorem mem_unescaped_grouped {p q : List Char} {alternatives : List (List Char)}
    (halt : ∀ a ∈ alternatives, IsAlternative a) (hp : endsInEscape p = false) {a : List Char}
    (ha : a ∈ alternatives) {c : Char} (hc : c ∈ unescaped (p ++ (a ++ q))) :
    c ∈ unescaped (grouped p alternatives q) := by
  rw [unescaped_append hp, unescaped_append (halt a ha).unescaping] at hc
  rw [grouped, unescaped_append hp, unescaped_append (endsInEscape_braces halt), List.cons_append,
    unescaped_cons (by decide), unescaped_append (endsInEscape_alternation halt)]
  simp only [List.mem_append, List.mem_cons] at hc ⊢
  rcases hc with hc | hc | hc
  · exact .inl hc
  · exact .inr (.inl (.inr (.inl (mem_unescaped_alternation halt ha hc))))
  · exact .inr (.inr hc)

/-- The pattern in which the alternatives stand between braces. -/
def withGroup (p : String) (alternatives : List String) (q : String) : String :=
  p ++ String.singleton '{' ++ ",".intercalate alternatives ++ String.singleton '}' ++ q

theorem toList_withGroup (p : String) (alternatives : List String) (q : String) :
    (withGroup p alternatives q).toList =
      grouped p.toList (alternatives.map String.toList) q.toList := by
  simp [withGroup, grouped, alternation, String.toList_intercalate]

/-- **A group of braces is a union**: the pattern with the group compiles, so do the patterns with
    one alternative in place of the group, and it matches the names that one of them matches. -/
theorem exists_ofPattern_group_iff {p q : String} {alternatives : List String}
    (hne : alternatives ≠ []) (hbracket : '[' ∉ unescaped (withGroup p alternatives q).toList)
    (hstray : closesOpened 0 (unescaped (withGroup p alternatives q).toList) = true)
    (hp : endsInEscape p.toList = false) (halt : ∀ a ∈ alternatives, IsAlternative a.toList)
    (hq : q.toList.head? ≠ some '.') :
    ∃ m, Matcher.ofPattern (withGroup p alternatives q) = .ok m ∧
      ∃ single : String → Matcher,
        (∀ a ∈ alternatives, Matcher.ofPattern (p ++ a ++ q) = .ok (single a)) ∧
        ∀ name : String, m.matches? name = true ↔
          ∃ a ∈ alternatives, (single a).matches? name = true := by
  have htext (a : String) : (p ++ a ++ q).toList = p.toList ++ (a.toList ++ q.toList) := by
    simp
  have halt' : ∀ a ∈ alternatives.map String.toList, IsAlternative a := by
    intro a ha
    obtain ⟨b, hb, rfl⟩ := List.mem_map.1 ha
    exact halt b hb
  refine ⟨_, ofPattern_of_bracketFree hbracket, fun a => compiled (p ++ a ++ q), ?_, ?_⟩
  · intro a ha
    refine ofPattern_of_bracketFree fun hmem => hbracket ?_
    rw [htext] at hmem
    rw [toList_withGroup]
    exact mem_unescaped_grouped halt' hp (List.mem_map_of_mem ha) hmem
  · intro name
    rw [toList_withGroup] at hstray
    have hnames := names_grouped_iff (by simpa using hne) halt' hp hq hstray name.toList
    simp only [matches?_compiled_iff, toList_withGroup, hnames, List.mem_map, htext]
    constructor
    · intro h
      obtain ⟨_, ⟨a, ha, rfl⟩, hname⟩ := h
      exact ⟨a, ha, hname⟩
    · intro h
      obtain ⟨a, ha, hname⟩ := h
      exact ⟨_, ⟨a, ha, rfl⟩, hname⟩

theorem matches_group_iff :
    (∀ a ∈ ["a/", "\x7bb,\\\x7d\x7dc", ""], IsAlternative a.toList) ∧
      ∃ m, Matcher.ofPattern
          (withGroup "x\x7b/," ["a/", "\x7bb,\\\x7d\x7dc", ""] "/,d\x7d*") = .ok m ∧
        ∃ single : String → Matcher,
          (∀ a ∈ ["a/", "\x7bb,\\\x7d\x7dc", ""],
            Matcher.ofPattern ("x\x7b/," ++ a ++ "/,d\x7d*") = .ok (single a)) ∧
          ∀ name : String, m.matches? name = true ↔
            ∃ a ∈ ["a/", "\x7bb,\\\x7d\x7dc", ""], (single a).matches? name = true :=
  ⟨by decide, exists_ofPattern_group_iff (by decide) (by decide) (by decide) (by decide) (by decide)
    (by decide)⟩

end DirGlob.Pattern
