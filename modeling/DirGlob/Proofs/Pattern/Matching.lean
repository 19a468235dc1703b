import DirGlob.Proofs.Pattern.Compiled
import DirGlob.Proofs.Pattern.Expansion

set_option autoImplicit false

/-! # Matching is membership in the language

The expression of a pattern without brackets reads exactly the words that the pattern expands to.
The groups that the reader has open (a nest of frames) and those that the expansion has open (a
list of choices) run side by side: `Spells` says that they mean the same, one element keeps it
(`spells_step`), and so does a whole pattern. Only the outermost frame begins with something that
is no word, the anchor and the guard. -/

namespace DirGlob.Pattern

open Regex (Frame Nest)

/-! ## Words and expressions -/

theorem Word.reads_append (u v : Word) (s t : List Char) :
    Word.Reads (u ++ v) s t ↔ ∃ m, Word.Reads u s m ∧ Word.Reads v m t := by
  induction u generalizing s with
  | nil => simp [Word.Reads]
  | cons a u ih =>
      simp only [List.cons_append, Word.Reads, ih]
      constructor
      · intro h
        obtain ⟨r, ha, m, hu, hv⟩ := h
        exact ⟨m, ⟨r, ha, hu⟩, hv⟩
      · intro h
        obtain ⟨m, ⟨r, ha, hu⟩, hv⟩ := h
        exact ⟨r, ha, m, hu, hv⟩

theorem Word.reads_singleton (a : Atom) (s t : List Char) :
    Word.Reads [a] s t ↔ a.Reads s t := by
  simp [Word.Reads]

/-- Behind what `before` reads, the expression reads one of the words. -/
def Denotes (before r : Regex) (ws : List Word) : Prop :=
  ∀ name s t, r.Reads name s t ↔ ∃ u, before.Reads name s u ∧ ∃ w ∈ ws, Word.Reads w u t

theorem denotes_empty_iff {r : Regex} {ws : List Word} :
    Denotes .empty r ws ↔ ∀ name s t, r.Reads name s t ↔ ∃ w ∈ ws, Word.Reads w s t := by
  simp [Denotes, Regex.Reads]

theorem denotes_self (before : Regex) : Denotes before before [[]] := by
  simp [Denotes, Word.Reads]

theorem denotes_seq {before r i : Regex} {us vs : List Word} (hr : Denotes before r us)
    (hi : Denotes .empty i vs) :
    Denotes before (.seq r i) (us.flatMap fun u => vs.map (u ++ ·)) := by
  rw [denotes_empty_iff] at hi
  intro name s t
  simp only [Regex.Reads, hr name, hi name, List.mem_flatMap, List.mem_map]
  constructor
  · intro h
    obtain ⟨m, ⟨u, hb, w, hw, hwm⟩, v, hv, hvt⟩ := h
    exact ⟨u, hb, w ++ v, ⟨w, hw, v, hv, rfl⟩, (Word.reads_append w v u t).2 ⟨m, hwm, hvt⟩⟩
  · intro h
    obtain ⟨u, hb, x, ⟨w, hw, v, hv, rfl⟩, hx⟩ := h
    obtain ⟨m, hwm, hvt⟩ := (Word.reads_append w v u t).1 hx
    exact ⟨m, ⟨u, hb, w, hw, hwm⟩, v, hv, hvt⟩

theorem denotes_alt {before a b : Regex} {us vs : List Word} (ha : Denotes before a us)
    (hb : Denotes before b vs) : Denotes before (.alt a b) (us ++ vs) := by
  intro name s t
  simp only [Regex.Reads, ha name, hb name, List.mem_append]
  constructor
  · intro hex
    rcases hex with ⟨u, hbefore, w, hw, h⟩ | ⟨u, hbefore, w, hw, h⟩
    · exact ⟨u, hbefore, w, .inl hw, h⟩
    · exact ⟨u, hbefore, w, .inr hw, h⟩
  · intro hex
    rcases hex with ⟨u, hbefore, w, hw | hw, h⟩
    · exact .inl ⟨u, hbefore, w, hw, h⟩
    · exact .inr ⟨u, hbefore, w, hw, h⟩

/-! ### Atoms -/

theorem denotes_literal (c : Char) : Denotes .empty (.char c) [[.literal c]] := by
  rw [denotes_empty_iff]
  simp [Regex.Reads, Word.reads_singleton, Atom.Reads]

theorem holds_notSeparator (c : Char) : Regex.notSeparator.holds c = true ↔ c ≠ '/' := by
  have hholds : Regex.notSeparator.holds c = true ↔ '/' ≠ c := by
    simp [Regex.notSeparator, CharSet.holds, CharSet.Item.holds]
  exact hholds.trans ⟨Ne.symm, Ne.symm⟩

theorem denotes_one : Denotes .empty (.set Regex.notSeparator) [[.one]] := by
  rw [denotes_empty_iff]
  simp [Regex.Reads, Word.reads_singleton, Atom.Reads, holds_notSeparator]

theorem denotes_run : Denotes .empty (.run Regex.notSeparator) [[.run]] := by
  rw [denotes_empty_iff]
  intro name s t
  simp only [Regex.Reads, holds_notSeparator, List.mem_singleton, exists_eq_left,
    Word.reads_singleton, Atom.Reads]
  constructor
  · intro h
    obtain ⟨w, hw, rfl⟩ := h
    exact ⟨w, fun hmem => hw '/' hmem rfl, rfl⟩
  · intro h
    obtain ⟨w, hw, rfl⟩ := h
    exact ⟨w, fun c hc he => hw (he ▸ hc), rfl⟩

theorem denotes_separator : Denotes .empty (.char '/') [[.separator false]] := by
  rw [denotes_empty_iff]
  simp [Regex.Reads, Word.reads_singleton, Atom.Reads]

theorem denotes_guarded : Denotes .empty (.seq (.char '/') .notDot) [[.separator true]] := by
  rw [denotes_empty_iff]
  intro name s t
  simp only [Regex.Reads, List.mem_singleton, exists_eq_left, Word.reads_singleton, Atom.Reads]
  constructor
  · intro h
    obtain ⟨u, rfl, hdot, rfl⟩ := h
    exact ⟨rfl, fun _ => hdot⟩
  · intro h
    obtain ⟨rfl, hdot⟩ := h
    exact ⟨t, rfl, hdot trivial, rfl⟩

/-! ## Frames and choices -/

/-- A frame whose alternatives are those of the choice. -/
structure FrameSpells (f : Frame) (c : Choice) : Prop where
  complete : match f.complete with
    | none => c.complete = []
    | some r => Denotes .empty r c.complete
  current : Denotes .empty f.current c.current

/-- The groups that are open mean the same as the choices; the outermost one has a single
    alternative, which begins with `before`. -/
def Spells (before : Regex) (f : Frame) : List Frame → Choice → List Choice → Prop
  | [], c, [] => f.complete = none ∧ c.complete = [] ∧ Denotes before f.current c.current
  | g :: fs, c, d :: ds => FrameSpells f c ∧ Spells before g fs d ds
  | _, _, _ => False

theorem frameSpells_opened (position : Nat) : FrameSpells (.opened position) .opened :=
  ⟨rfl, denotes_self .empty⟩

theorem denotes_body {f : Frame} {c : Choice} (h : FrameSpells f c) :
    Denotes .empty f.body c.words := by
  obtain ⟨position, complete, current⟩ := f
  obtain ⟨hcomplete, hcurrent⟩ := h
  cases complete with
  | none =>
      have hwords : c.words = c.current := by rw [Choice.words, hcomplete, List.nil_append]
      rw [hwords]
      exact hcurrent
  | some r => exact denotes_alt hcomplete hcurrent

theorem frameSpells_bar {f : Frame} {c : Choice} (h : FrameSpells f c) :
    FrameSpells f.bar c.next :=
  ⟨denotes_body h, denotes_self .empty⟩

theorem spells_push {before item : Regex} {ws : List Word} {f : Frame} {fs : List Frame}
    {c : Choice} {cs : List Choice} (h : Spells before f fs c cs) (hi : Denotes .empty item ws) :
    Spells before (f.push item) fs (c.append ws) cs := by
  cases fs with
  | nil =>
      cases cs with
      | nil => exact ⟨h.1, h.2.1, denotes_seq h.2.2 hi⟩
      | cons d ds => exact h
  | cons g fs =>
      cases cs with
      | nil => exact h
      | cons d ds => exact ⟨⟨h.1.complete, denotes_seq h.1.current hi⟩, h.2⟩

theorem spells_congr {before : Regex} {f g : Frame} {fs : List Frame} {c : Choice}
    {cs : List Choice} (hcomplete : g.complete = f.complete)
    (hcurrent : ∀ name s t, g.current.Reads name s t ↔ f.current.Reads name s t)
    (h : Spells before f fs c cs) : Spells before g fs c cs := by
  cases fs with
  | nil =>
      cases cs with
      | nil =>
          refine ⟨hcomplete.trans h.1, h.2.1, ?_⟩
          exact fun name s t => (hcurrent name s t).trans (h.2.2 name s t)
      | cons d ds => exact h
  | cons e fs =>
      cases cs with
      | nil => exact h
      | cons d ds =>
          refine ⟨⟨?_, ?_⟩, h.2⟩
          · rw [hcomplete]
            exact h.1.complete
          · exact fun name s t => (hcurrent name s t).trans (h.1.current name s t)

theorem spells_guarded {before : Regex} {f : Frame} {fs : List Frame} {c : Choice}
    {cs : List Choice} (h : Spells before f fs c cs) :
    Spells before ((f.push (.char '/')).push .notDot) fs (c.push (.separator true)) cs := by
  -- the reader pushes the guard as an item of its own, which reads the same
  refine spells_congr (f := f.push (.seq (.char '/') .notDot)) rfl ?_
    (spells_push h denotes_guarded)
  intro name s t
  simp only [Frame.push, Regex.Reads]
  constructor
  · intro hex
    obtain ⟨u, ⟨_, hv, rfl⟩, hdot⟩ := hex
    exact ⟨_, hv, u, rfl, hdot⟩
  · intro hex
    obtain ⟨_, hv, u, rfl, hdot⟩ := hex
    exact ⟨u, ⟨_, hv, rfl⟩, hdot⟩

theorem spells_openGroup {before : Regex} {f : Frame} {fs : List Frame} {c : Choice}
    {cs : List Choice} (h : Spells before f fs c cs) :
    Spells before (.opened 0) (f :: fs) .opened (c :: cs) :=
  ⟨frameSpells_opened 0, h⟩

theorem spells_closeGroup {before : Regex} {f g : Frame} {fs : List Frame} {c d : Choice}
    {cs : List Choice} (h : Spells before f (g :: fs) c (d :: cs)) :
    Spells before (g.push (.group f.body)) fs (d.append c.words) cs :=
  spells_push h.2 (denotes_body h.1)

theorem spells_bar {before : Regex} {f : Frame} {fs : List Frame} {c : Choice} {cs : List Choice}
    (h : Spells before f fs c cs) (hfs : fs ≠ []) : Spells before f.bar fs c.next cs := by
  cases fs with
  | nil => exact absurd rfl hfs
  | cons g fs =>
      cases cs with
      | nil => exact h
      | cons d ds => exact ⟨frameSpells_bar h.1, h.2⟩

theorem length_eq_of_spells {before : Regex} {f : Frame} {fs : List Frame} {c : Choice}
    {cs : List Choice} (h : Spells before f fs c cs) : fs.length = cs.length := by
  induction fs generalizing f c cs with
  | nil =>
      cases cs with
      | nil => rfl
      | cons d ds => exact h.elim
  | cons g fs ih =>
      cases cs with
      | nil => exact h.elim
      | cons d ds => rw [List.length_cons, List.length_cons, ih h.2]

/-! ## Patterns -/

/-- A nest and an expansion that have got to the same place behind the braces `b`. There are never
    fewer groups open than the depth says, so a comma that divides alternatives is in a group. -/
structure Agrees (before : Regex) (b : Braces) (n : Nest) (x : Expansion) : Prop where
  spells : Spells before n.inner n.outer x.choice x.outer
  depth : x.depth = b.depth
  openGroups : n.outer.length = b.openGroups
  depth_le : b.depth ≤ b.openGroups

theorem agrees_push {before item : Regex} {b : Braces} {n : Nest} {x : Expansion} {a : Atom}
    (h : Agrees before b n x) (hi : Denotes .empty item [[a]]) :
    Agrees before b (n.push item) (x.push a) :=
  ⟨spells_push h.spells hi, h.depth, h.openGroups, h.depth_le⟩

theorem agrees_literal {before : Regex} {b : Braces} {n : Nest} {x : Expansion} {c : Char}
    (h : Agrees before b n x) (hc : b.IsLiteral c) :
    Agrees before (b.after (.plain c)) (n.push (.char c)) (x.step (.plain c)) := by
  -- the depths agree, so a comma that is a character for the braces is one for the expansion
  have hcomma : ¬(c = ',' ∧ x.depth > 0) := by
    rw [h.depth]
    exact hc.comma
  rw [hc.after_eq, Expansion.step_plain x hc.star hc.one hc.opening hc.closing, if_neg hcomma]
  exact agrees_push h (denotes_literal c)

theorem agrees_openGroup {before : Regex} {b : Braces} {n : Nest} {x : Expansion}
    (h : Agrees before b n x) :
    Agrees before (b.after (.plain '{')) n.openGroup (x.step (.plain '{')) := by
  have hle := h.depth_le
  refine ⟨spells_openGroup h.spells, congrArg (· + 1) h.depth, congrArg (· + 1) h.openGroups, ?_⟩
  simp only [Braces.after]
  omega

theorem agrees_closeGroup {before : Regex} {b : Braces} {n : Nest} {x : Expansion}
    (h : Agrees before b n x) (hopen : b.openGroups > 0) :
    Agrees before (b.after (.plain '}')) n.closeGroup (x.step (.plain '}')) := by
  obtain ⟨hspells, hdepth, hgroups, hle⟩ := h
  obtain ⟨inner, outer⟩ := n
  obtain ⟨depth, choice, choices⟩ := x
  cases outer with
  | nil => exact absurd hgroups (by simp only [List.length_nil]; omega)
  | cons f outer =>
      cases choices with
      | nil => exact hspells.elim
      | cons c choices =>
          rw [List.length_cons] at hgroups
          refine ⟨spells_closeGroup hspells, congrArg (· - 1) hdepth, ?_, ?_⟩
          · show outer.length = b.openGroups - 1
            omega
          · show b.depth - 1 ≤ ((b.openGroups - 1 : Nat) : Int)
            omega

theorem agrees_strayClose {before : Regex} {b : Braces} {n : Nest} {x : Expansion}
    (h : Agrees before b n x) (hopen : b.openGroups = 0) :
    Agrees before (b.after (.plain '}')) (n.push (.char '}')) (x.step (.plain '}')) := by
  obtain ⟨hspells, hdepth, hgroups, hle⟩ := h
  obtain ⟨depth, choice, choices⟩ := x
  have hlength : n.outer.length = choices.length := length_eq_of_spells hspells
  have hnil : choices = [] := List.length_eq_zero_iff.1 (by omega)
  subst hnil
  refine ⟨spells_push hspells (denotes_literal '}'), congrArg (· - 1) hdepth, ?_, ?_⟩
  · show n.outer.length = b.openGroups - 1
    omega
  · show b.depth - 1 ≤ ((b.openGroups - 1 : Nat) : Int)
    omega

theorem agrees_bar {before : Regex} {b : Braces} {n : Nest} {x : Expansion}
    (h : Agrees before b n x) (hdepth : b.depth > 0) :
    Agrees before b n.bar { x with choice := x.choice.next } := by
  have hle := h.depth_le
  have houter : n.outer ≠ [] := by
    rw [← List.length_pos_iff, h.openGroups]
    omega
  exact ⟨spells_bar h.spells houter, h.depth, h.openGroups, hle⟩

/-- One element keeps the agreement. -/
theorem agrees_step {before : Regex} {b : Braces} {n : Nest} {x : Expansion}
    (h : Agrees before b n x) (e : Element) :
    Agrees before (b.after e) (n.after (b.fragment e)) (x.step e) := by
  have hgives := b.gives_fragment e
  generalize b.fragment e = f at hgives
  cases hgives with
  | kept _ => exact agrees_push h (denotes_literal _)
  | bare _ => exact agrees_push h (denotes_literal _)
  | separator dotted =>
      cases dotted with
      | true => exact agrees_push h denotes_separator
      | false => exact ⟨spells_guarded h.spells, h.depth, h.openGroups, h.depth_le⟩
  | run => exact agrees_push h denotes_run
  | one => exact agrees_push h denotes_one
  | openGroup => exact agrees_openGroup h
  | closeGroup hopen => exact agrees_closeGroup h hopen
  | strayClose hopen => exact agrees_strayClose h hopen
  | bar hdepth =>
      have hcomma : x.depth > 0 := h.depth ▸ hdepth
      rw [Expansion.step_comma x hcomma]
      exact agrees_bar h hdepth
  | special hc _ => exact agrees_literal h hc
  | char hc _ => exact agrees_literal h hc

theorem spells_closing {before : Regex} {n : Nest} {choice : Choice} {choices : List Choice}
    (h : Spells before n.inner n.outer choice choices) :
    Spells before ((List.replicate n.outer.length Fragment.closeGroup).foldl Nest.after n).inner []
      ⟨[], closeAll choice choices⟩ [] := by
  obtain ⟨inner, outer⟩ := n
  induction outer generalizing inner choice choices with
  | nil =>
      cases choices with
      | nil =>
          obtain ⟨hnone, hempty, hcurrent⟩ := h
          refine ⟨hnone, rfl, ?_⟩
          rw [closeAll, Choice.words, hempty, List.nil_append]
          exact hcurrent
      | cons d ds => exact h.elim
  | cons f outer ih =>
      cases choices with
      | nil => exact h.elim
      | cons d ds =>
          rw [closeAll]
          exact ih _ (spells_closeGroup h)

/-- A whole pattern: the nest behind its last fragment reads the words of its expansion. -/
theorem spells_fragmentsFrom {before : Regex} {b : Braces} {n : Nest} {x : Expansion}
    (h : Agrees before b n x) (es : List Element) :
    Spells before ((fragmentsFrom b es).foldl Nest.after n).inner []
      ⟨[], (es.foldl Expansion.step x).words⟩ [] := by
  induction es generalizing b n x with
  | nil =>
      rw [fragmentsFrom, ← h.openGroups]
      exact spells_closing h.spells
  | cons e es ih => exact ih (agrees_step h e)

/-! ## The language -/

theorem reads_anchored (pattern name s t : List Char) :
    (anchored pattern).inner.current.Reads name s t ↔
      s = name ∧ s = t ∧ (pattern.head? ≠ some '.' → name.head? ≠ some '.') := by
  unfold anchored
  by_cases hdot : pattern.head? = some '.'
  · rw [if_pos hdot]
    simp [Nest.push, Nest.empty, Frame.push, Frame.opened, Regex.Reads, hdot]
  · rw [if_neg hdot]
    simp only [Nest.push, Nest.empty, Frame.push, Frame.opened, Regex.Reads]
    constructor
    · intro h
      obtain ⟨_, ⟨_, rfl, hname, rfl⟩, hs, rfl⟩ := h
      exact ⟨hname, rfl, fun _ => hname ▸ hs⟩
    · intro h
      obtain ⟨rfl, rfl, hs⟩ := h
      exact ⟨s, ⟨s, rfl, rfl, rfl⟩, hs hdot, rfl⟩

theorem agrees_anchored (pattern : List Char) :
    Agrees (anchored pattern).inner.current .none (anchored pattern) .start := by
  refine ⟨?_, rfl, length_outer_anchored pattern, Int.le_refl 0⟩
  rw [outer_anchored]
  refine ⟨?_, rfl, denotes_self _⟩
  unfold anchored
  split <;> rfl

/-- Behind the anchors, the expression reads the words of the pattern and then the end. -/
theorem exists_expression_eq (pattern : List Char) :
    ∃ r, expression pattern = .seq r .finish ∧
      Denotes (anchored pattern).inner.current r (expand pattern) := by
  obtain ⟨hnone, -, hcurrent⟩ :=
    spells_fragmentsFrom (agrees_anchored pattern) (elements pattern)
  have hwords : expand pattern = ((elements pattern).foldl Expansion.step .start).words :=
    expandFrom_eq 0 .opened [] pattern
  rw [hwords]
  refine ⟨_, ?_, hcurrent⟩
  rw [expression, fragments, Frame.body]
  simp only [Nest.push, Frame.push, hnone]

/-- The expression of a pattern reads the names of its language, each to its end. -/
theorem reads_expression (pattern name t : List Char) :
    (expression pattern).Reads name name t ↔ t = [] ∧ Names pattern name := by
  obtain ⟨r, hr, hdenotes⟩ := exists_expression_eq pattern
  rw [hr]
  simp only [Regex.Reads, hdenotes name, reads_anchored]
  constructor
  · intro h
    obtain ⟨_, ⟨_, ⟨-, rfl, hdot⟩, hword⟩, rfl, rfl⟩ := h
    exact ⟨rfl, hdot, hword⟩
  · intro h
    obtain ⟨rfl, hdot, hword⟩ := h
    exact ⟨[], ⟨name, ⟨trivial, rfl, hdot⟩, hword⟩, rfl, rfl⟩

theorem matches?_compiled_iff (pattern name : String) :
    (compiled pattern).matches? name = true ↔ Names pattern.toList name.toList := by
  show (expression pattern.toList).matchesChars name.toList = true ↔ _
  rw [Regex.matchesChars_iff]
  simp only [reads_expression, exists_eq_left]

/-- **A pattern without unescaped brackets matches exactly the names of its language**, whatever its
    braces are like. -/
theorem exists_ofPattern_matches_iff {pattern : String} (h : '[' ∉ unescaped pattern.toList) :
    ∃ m, Matcher.ofPattern pattern = .ok m ∧
      ∀ name : String, m.matches? name = true ↔ Names pattern.toList name.toList :=
  ⟨_, ofPattern_of_bracketFree h, matches?_compiled_iff pattern⟩

theorem matches_unterminated_iff : '[' ∉ unescaped "a/\x7b.b,\x7bc,\\[*\x7d,d".toList ∧
    ∃ m, Matcher.ofPattern "a/\x7b.b,\x7bc,\\[*\x7d,d" = .ok m ∧
      ∀ name : String,
        m.matches? name = true ↔ Names "a/\x7b.b,\x7bc,\\[*\x7d,d".toList name.toList :=
  ⟨by decide, exists_ofPattern_matches_iff (by decide)⟩

end DirGlob.Pattern
