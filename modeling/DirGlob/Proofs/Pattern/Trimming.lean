import DirGlob.Proofs.Pattern.GroupExpansion
import DirGlob.Proofs.Pattern.Matching
import DirGlob.Proofs.Pattern.StrayBrace

set_option autoImplicit false

/-! # Words with parts left out

A captive comma is a part of every word of its group. If it divided alternatives instead, each word
would keep one of them and lose the others, and the comma as well: what is left of it is *trimmed*
(`Word.Trims`).

Two readings of a pattern are compared here. In the one the commas of all open groups are captive,
in the other one they divide alternatives. The groups of the two go together (`HoldsAll`): whatever
is read next, each word of the one leaves a word of the other. Stray braces stand in the outermost
group only, and a word and what is left of it begin alike up to one of them. In words without
separators the parts that are left out are missing from the names as well
(`Word.exists_reads_of_sublist`). -/

namespace DirGlob.Pattern

/-! ## Words with parts left out -/

/-- What an atom reads does not depend on what follows, unless it is a separator. -/
theorem Atom.exists_reads {a : Atom} (ha : ∀ guarded, a ≠ .separator guarded) {s t : List Char}
    (h : a.Reads s t) : ∃ k, s = k ++ t ∧ (∀ t', a.Reads (k ++ t') t') ∧
      ∀ c, a = .literal c → k.length = 1 := by
  cases a with
  | literal c => exact ⟨[c], h, fun t' => rfl, fun _ _ => rfl⟩
  | separator guarded => exact absurd rfl (ha guarded)
  | run =>
      obtain ⟨k, hk, rfl⟩ := h
      exact ⟨k, rfl, fun t' => ⟨k, hk, rfl⟩, nofun⟩
  | one =>
      obtain ⟨c, hc, rfl⟩ := h
      exact ⟨[c], rfl, fun t' => ⟨c, hc, rfl⟩, nofun⟩

namespace Word

/-- A word without separators. -/
def IsFlat (w : Word) : Prop := ∀ a ∈ w, ∀ guarded, a ≠ .separator guarded

/-- The first word is the second one with atoms left out; if `strict`, a comma is among them. -/
structure Trims (strict : Prop) (w w' : Word) : Prop where
  sublist : w.Sublist w'
  commas : strict → w.count (.literal ',') < w'.count (.literal ',')

variable {strict strict' : Prop} {u v w w' : Word}

theorem trims_refl (w : Word) : Trims False w w := ⟨List.Sublist.refl w, nofun⟩

theorem Trims.mono (h : Trims strict w w') (himp : strict' → strict) : Trims strict' w w' :=
  ⟨h.sublist, fun hs => h.commas (himp hs)⟩

theorem Trims.append (h : Trims strict w w') (h' : Trims strict' u v) :
    Trims (strict ∨ strict') (w ++ u) (w' ++ v) := by
  refine ⟨h.sublist.append h'.sublist, fun hstrict => ?_⟩
  have hle := h.sublist.count_le (.literal ',')
  have hle' := h'.sublist.count_le (.literal ',')
  rw [List.count_append, List.count_append]
  rcases hstrict with hs | hs
  · have hlt := h.commas hs
    omega
  · have hlt := h'.commas hs
    omega

theorem Trims.append_right (h : Trims strict w w') (v : Word) : Trims strict w (w' ++ v) := by
  refine ⟨h.sublist.trans (List.sublist_append_left w' v), fun hstrict => ?_⟩
  have hlt := h.commas hstrict
  rw [List.count_append]
  omega

theorem Trims.append_comma (h : Trims strict w w') : Trims True w (w' ++ [.literal ',']) := by
  refine ⟨h.sublist.trans (List.sublist_append_left w' _), fun _ => ?_⟩
  have hle := h.sublist.count_le (.literal ',')
  rw [List.count_append, List.count_singleton_self]
  omega

/-- What a flat word reads does not depend on what follows. -/
theorem IsFlat.exists_reads (hw : w.IsFlat) {s t : List Char} (h : w.Reads s t) :
    ∃ k, s = k ++ t ∧ (∀ t', w.Reads (k ++ t') t') ∧ ∀ c, .literal c ∈ w → k ≠ [] := by
  induction w generalizing s with
  | nil => exact ⟨[], h, fun _ => rfl, nofun⟩
  | cons a w ih =>
      obtain ⟨m, ha, hm⟩ := h
      obtain ⟨k, rfl, hk, hliteral⟩ :=
        Atom.exists_reads (hw a List.mem_cons_self) ha
      obtain ⟨k', rfl, hk', hliteral'⟩ := ih (fun b hb => hw b (List.mem_cons_of_mem _ hb)) hm
      refine ⟨k ++ k', (List.append_assoc ..).symm, fun t' => ?_, fun c hc hnil => ?_⟩
      · rw [List.append_assoc]
        exact ⟨k' ++ t', hk _, hk' t'⟩
      · obtain ⟨rfl, rfl⟩ := List.append_eq_nil_iff.1 hnil
        rcases List.mem_cons.1 hc with rfl | hc
        · exact absurd (hliteral c rfl) (by simp)
        · exact hliteral' c hc rfl

/-- What is left of a flat word reads what is left of a name, which lacks a character for each comma
    that is left out. -/
theorem exists_reads_of_sublist (h : w.Sublist w') (hw' : w'.IsFlat) {n : List Char}
    (hn : w'.Reads n []) : ∃ n', w.Reads n' [] ∧
      n'.length + w'.count (.literal ',') ≤ n.length + w.count (.literal ',') := by
  induction h generalizing n with
  | slnil => exact ⟨n, hn, Nat.le_refl _⟩
  | @cons w w' a _ ih =>
      obtain ⟨m, ha, hm⟩ := hn
      obtain ⟨k, rfl, -, hliteral⟩ := Atom.exists_reads (hw' a List.mem_cons_self) ha
      obtain ⟨n', hn', hle⟩ := ih (fun b hb => hw' b (List.mem_cons_of_mem _ hb)) hm
      refine ⟨n', hn', ?_⟩
      rw [List.count_cons, List.length_append]
      split
      · next hcomma =>
        have hlength := hliteral ',' (by simpa using hcomma)
        omega
      · omega
  | @cons_cons w w' a _ ih =>
      obtain ⟨m, ha, hm⟩ := hn
      obtain ⟨k, rfl, hk, -⟩ := Atom.exists_reads (hw' a List.mem_cons_self) ha
      obtain ⟨n', hn', hle⟩ := ih (fun b hb => hw' b (List.mem_cons_of_mem _ hb)) hm
      refine ⟨k ++ n', ⟨n', hk n', hn'⟩, ?_⟩
      rw [List.count_cons, List.count_cons, List.length_append, List.length_append]
      omega

end Word

/-! ## Groups in which commas are captive -/

open Word (Trims)

/-- The words of the alternatives that are complete, or of the first one as far as it has been
    read. -/
def Choice.early (c : Choice) : List Word := if c.complete = [] then c.current else c.complete

theorem Choice.early_subset {c : Choice} {w : Word} (h : w ∈ c.early) : w ∈ c.words := by
  rw [Choice.early] at h
  rw [Choice.words, List.mem_append]
  split at h
  · exact .inr h
  · exact .inl h

/-- The group holds its commas captive, and in the other one they divide alternatives. What is left
    of each word is among the early words of the other group. -/
structure Holds (strict : Prop) (c c' : Choice) : Prop where
  complete : c.complete = []
  divided : c'.complete ≠ [] → strict
  early : ∀ w ∈ c.current, ∃ w' ∈ c'.early, Trims strict w' w

/-- The outermost group behind this many stray braces. What is left of a word begins as the word
    does, up to some stray brace. -/
structure HoldsOutermost (strays : Nat) (strict : Prop) (c c' : Choice) : Prop where
  complete : c.complete = []
  complete' : c'.complete = []
  current : ∀ w ∈ c.current, ∃ u r r', w = u ++ r ∧ u ++ r' ∈ c'.current ∧ Trims strict r' r ∧
    (strays = 0 → r = []) ∧ (0 < strays → .literal '}' ∈ u)

/-- The groups that are open behind this many stray braces, the innermost first, if commas are
    captive in all of them. -/
inductive HoldsAll (strays : Nat) : Prop → Choice → List Choice → Choice → List Choice → Prop
  | outermost {strict : Prop} {c c' : Choice} (h : HoldsOutermost strays strict c c') :
      HoldsAll strays strict c [] c' []
  | inner {strict here around : Prop} {c c' d d' : Choice} {ds ds' : List Choice}
      (hstrict : strict → here ∨ around) (hhere : Holds here c c')
      (haround : HoldsAll strays around d ds d' ds') :
      HoldsAll strays strict c (d :: ds) c' (d' :: ds')

variable {strays : Nat} {strict strict' : Prop} {c c' d d' : Choice} {ds ds' : List Choice}

theorem mem_append_current {c : Choice} {ws : List Word} {w : Word} :
    w ∈ (c.append ws).current ↔ ∃ u ∈ c.current, ∃ v ∈ ws, w = u ++ v := by
  simp [Choice.append, eq_comm]

/-- What a group goes on with is trimmed by what the other one goes on with. -/
theorem Holds.append (h : Holds strict c c') {ws ws' : List Word}
    (hws : ∀ w ∈ ws, ∃ w' ∈ ws', Trims strict' w' w) :
    Holds (strict ∨ strict') (c.append ws) (c'.append ws') where
  complete := h.complete
  divided hne := .inl (h.divided hne)
  early w hw := by
    obtain ⟨u, hu, v, hv, rfl⟩ := mem_append_current.1 hw
    obtain ⟨u', hu', htrims⟩ := h.early u hu
    by_cases hnone : c'.complete = []
    · obtain ⟨v', hv', htrims'⟩ := hws v hv
      have hearly : (c'.append ws').early = (c'.append ws').current := if_pos hnone
      have hcurrent : u' ∈ c'.current := by rwa [Choice.early, if_pos hnone] at hu'
      exact ⟨u' ++ v', hearly ▸ mem_append_current.2 ⟨u', hcurrent, v', hv', rfl⟩,
        htrims.append htrims'⟩
    · -- the alternative that is being read is left out
      have hearly : (c'.append ws').early = c'.early := by
        rw [Choice.early, Choice.early, if_neg hnone]
        exact if_neg hnone
      exact ⟨u', hearly ▸ hu', (htrims.append_right v).mono fun _ => h.divided hnone⟩

theorem holds_opened : Holds False .opened .opened :=
  ⟨rfl, fun h => h rfl, fun w hw => ⟨w, hw, Word.trims_refl w⟩⟩

theorem Holds.trims_words (h : Holds strict c c') :
    ∀ w ∈ c.words, ∃ w' ∈ c'.words, Trims strict w' w := by
  intro w hw
  rw [Choice.words, h.complete, List.nil_append] at hw
  obtain ⟨w', hw', htrims⟩ := h.early w hw
  exact ⟨w', Choice.early_subset hw', htrims⟩

/-- The comma that divides alternatives in the one group is a part of the words of the other. -/
theorem Holds.comma (h : Holds strict c c') : Holds True (c.push (.literal ',')) c'.next where
  complete := h.complete
  divided _ := trivial
  early w hw := by
    obtain ⟨u, hu, v, hv, rfl⟩ := mem_append_current.1 hw
    obtain ⟨u', hu', htrims⟩ := h.early u hu
    have hmem : u' ∈ c'.words := Choice.early_subset hu'
    have hearly : c'.next.early = c'.words := if_neg (List.ne_nil_of_mem hmem)
    rw [List.mem_singleton.1 hv]
    exact ⟨u', hearly ▸ hmem, htrims.append_comma⟩

theorem trims_self (ws : List Word) : ∀ w ∈ ws, ∃ w' ∈ ws, Trims False w' w :=
  fun w hw => ⟨w, hw, Word.trims_refl w⟩

theorem holdsOutermost_opened : HoldsOutermost 0 False .opened .opened where
  complete := rfl
  complete' := rfl
  current w hw := ⟨w, [], [], (List.append_nil w).symm, by rwa [List.append_nil],
    Word.trims_refl [], fun _ => rfl, fun h => absurd h (Nat.lt_irrefl 0)⟩

theorem HoldsOutermost.append (h : HoldsOutermost strays strict c c') (hstrays : 0 < strays)
    {ws ws' : List Word} (hws : ∀ w ∈ ws, ∃ w' ∈ ws', Trims strict' w' w) :
    HoldsOutermost strays (strict ∨ strict') (c.append ws) (c'.append ws') where
  complete := h.complete
  complete' := h.complete'
  current w hw := by
    obtain ⟨x, hx, v, hv, rfl⟩ := mem_append_current.1 hw
    obtain ⟨u, r, r', rfl, hmem, htrims, -, hbrace⟩ := h.current x hx
    obtain ⟨v', hv', htrims'⟩ := hws v hv
    refine ⟨u, r ++ v, r' ++ v', List.append_assoc .., ?_, htrims.append htrims', ?_, hbrace⟩
    · exact mem_append_current.2 ⟨_, hmem, v', hv', (List.append_assoc ..).symm⟩
    · exact fun hnone => absurd hnone (Nat.ne_of_gt hstrays)

/-- As long as there was no stray brace, the two groups are the same. -/
theorem HoldsOutermost.append_self (h : HoldsOutermost strays strict c c') (ws : List Word) :
    HoldsOutermost strays (strict ∨ False) (c.append ws) (c'.append ws) := by
  by_cases hstrays : 0 < strays
  · exact h.append hstrays (trims_self ws)
  · refine ⟨h.complete, h.complete', fun w hw => ?_⟩
    obtain ⟨x, hx, v, hv, rfl⟩ := mem_append_current.1 hw
    obtain ⟨u, r, r', rfl, hmem, htrims, hnil, -⟩ := h.current x hx
    obtain rfl := hnil (Nat.eq_zero_of_not_pos hstrays)
    obtain rfl := List.sublist_nil.1 htrims.sublist
    rw [List.append_nil] at hmem
    refine ⟨u ++ v, [], [], by simp, ?_, ⟨List.Sublist.refl _, fun hs => ?_⟩, fun _ => rfl,
      fun hpos => absurd hpos hstrays⟩
    · rw [List.append_nil]
      exact mem_append_current.2 ⟨u, hmem, v, hv, rfl⟩
    · exact absurd (htrims.commas (hs.resolve_right id)) (Nat.lt_irrefl _)

theorem HoldsOutermost.stray (h : HoldsOutermost strays strict c c') :
    HoldsOutermost (strays + 1) strict (c.push (.literal '}')) (c'.push (.literal '}')) where
  complete := h.complete
  complete' := h.complete'
  current w hw := by
    obtain ⟨x, hx, v, hv, rfl⟩ := mem_append_current.1 hw
    obtain ⟨u, r, r', rfl, hmem, htrims, hnil, hbrace⟩ := h.current x hx
    rw [List.mem_singleton.1 hv]
    by_cases hstrays : 0 < strays
    · refine ⟨u, r ++ [.literal '}'], r' ++ [.literal '}'], List.append_assoc .., ?_, ?_, nofun,
        fun _ => hbrace hstrays⟩
      · exact mem_append_current.2 ⟨_, hmem, _, List.mem_singleton_self _, (List.append_assoc ..).symm⟩
      · exact (htrims.append (Word.trims_refl [.literal '}'])).mono .inl
    · -- the first stray brace is where the words may part
      obtain rfl := hnil (Nat.eq_zero_of_not_pos hstrays)
      obtain rfl := List.sublist_nil.1 htrims.sublist
      refine ⟨u ++ [.literal '}'], [], [], by simp, ?_, htrims, nofun, fun _ => by simp⟩
      rw [List.append_nil] at hmem ⊢
      exact mem_append_current.2 ⟨u, hmem, _, List.mem_singleton_self _, rfl⟩

theorem HoldsOutermost.mem_words (h : HoldsOutermost strays strict c c') (hstrict : strict) :
    ∀ w ∈ c.words, ∃ u r r', w = u ++ r ∧ u ++ r' ∈ c'.words ∧ Trims strict r' r ∧
      .literal '}' ∈ u := by
  intro w hw
  rw [Choice.words, h.complete, List.nil_append] at hw
  obtain ⟨u, r, r', hw, hmem, htrims, hnil, hbrace⟩ := h.current w hw
  refine ⟨u, r, r', hw, List.mem_append_right _ hmem, htrims, hbrace ?_⟩
  refine Nat.pos_of_ne_zero fun hnone => ?_
  -- without a stray brace nothing is left out
  obtain rfl := hnil hnone
  have hless := htrims.commas hstrict
  rw [List.count_nil] at hless
  exact Nat.not_lt_zero _ hless

/-! ## All groups -/

theorem HoldsOutermost.mono (h : HoldsOutermost strays strict c c') (himp : strict' → strict) :
    HoldsOutermost strays strict' c c' where
  complete := h.complete
  complete' := h.complete'
  current w hw := by
    obtain ⟨u, r, r', hw, hmem, htrims, hrest⟩ := h.current w hw
    exact ⟨u, r, r', hw, hmem, htrims.mono himp, hrest⟩

theorem HoldsAll.mono (h : HoldsAll strays strict c ds c' ds') (himp : strict' → strict) :
    HoldsAll strays strict' c ds c' ds' := by
  cases h with
  | outermost h => exact .outermost (h.mono himp)
  | inner hstrict hhere haround => exact .inner (fun hs => hstrict (himp hs)) hhere haround

/-- What becomes of the innermost group becomes of all. -/
theorem HoldsAll.innermost {g g' : Choice} (h : HoldsAll strays strict c ds c' ds')
    (houter : HoldsOutermost strays strict c c' → HoldsOutermost strays (strict ∨ strict') g g')
    (hinner : ∀ here, Holds here c c' → Holds (here ∨ strict') g g') :
    HoldsAll strays (strict ∨ strict') g ds g' ds' := by
  cases h with
  | outermost h => exact .outermost (houter h)
  | inner hstrict hhere haround =>
      refine .inner ?_ (hinner _ hhere) haround
      rintro (hs | hs)
      · exact (hstrict hs).imp .inl id
      · exact .inl (.inr hs)

theorem HoldsAll.append_self (h : HoldsAll strays strict c ds c' ds') (ws : List Word) :
    HoldsAll strays strict (c.append ws) ds (c'.append ws) ds' := by
  refine (h.innermost (fun ho => ho.append_self ws) fun here hh => ?_).mono .inl
  exact hh.append (trims_self ws)

theorem HoldsAll.openGroup (h : HoldsAll strays strict c ds c' ds') :
    HoldsAll strays strict .opened (c :: ds) .opened (c' :: ds') :=
  .inner .inr holds_opened h

theorem HoldsAll.closeGroup (h : HoldsAll strays strict c (d :: ds) c' (d' :: ds'))
    (hstrays : 0 < strays) :
    HoldsAll strays strict (d.append c.words) ds (d'.append c'.words) ds' := by
  cases h with
  | inner hstrict hhere haround =>
      have hclosed := haround.innermost (fun ho => ho.append hstrays hhere.trims_words)
        fun _ hh => hh.append hhere.trims_words
      exact hclosed.mono fun hs => (hstrict hs).symm

theorem HoldsAll.comma (h : HoldsAll strays strict c (d :: ds) c' (d' :: ds')) :
    HoldsAll strays True (c.push (.literal ',')) (d :: ds) c'.next (d' :: ds') := by
  cases h with
  | inner hstrict hhere haround => exact .inner (fun _ => .inl trivial) hhere.comma haround

/-- When the pattern ends, what is left of each word is a word of the other pattern. -/
theorem HoldsAll.mem_closeAll (h : HoldsAll strays strict c ds c' ds') (hlow : ds.length ≤ strays)
    (hstrict : strict) :
    ∀ w ∈ closeAll c ds, ∃ u r r', w = u ++ r ∧ u ++ r' ∈ closeAll c' ds' ∧ Trims strict r' r ∧
      .literal '}' ∈ u := by
  induction ds generalizing c c' ds' with
  | nil =>
      cases h with
      | outermost h => exact h.mem_words hstrict
  | cons d ds ih =>
      cases ds' with
      | nil => cases h
      | cons d' ds' =>
          have hclosed := h.closeGroup (Nat.zero_lt_of_lt hlow)
          have hleft := ih hclosed (Nat.le_of_succ_le hlow)
          exact hleft

end DirGlob.Pattern
