import DirGlob.Regex.Match
import DirGlob.Regex.Reader

set_option autoImplicit false

/-! # The first alternative of an expression

An expression that begins with the guard against a dot keeps the guard in its first alternative,
whatever is read behind it. `Reader.grows_step` says for every character what it does to the
alternatives of the whole expression: a bar outside of all groups begins another one, and everything
else leaves them as they are. No character set, group or star gets hold of the guard. -/

namespace DirGlob.Regex

/-! ## Guarded expressions -/

/-- The expression begins with the start of the name and the guard against a dot. -/
inductive Guarded : Regex → Prop
  | anchors : Guarded (.seq (.seq .empty .start) .notDot)
  | seq {r : Regex} (item : Regex) (h : Guarded r) : Guarded (.seq r item)

/-- The first alternative of the expression is guarded. -/
inductive GuardedFirst : Regex → Prop
  | single {r : Regex} (h : Guarded r) : GuardedFirst r
  | alt {r : Regex} (last : Regex) (h : GuardedFirst r) : GuardedFirst (.alt r last)

/-- The alternatives of the expression but the first. -/
def laterAlternatives : Regex → List Regex
  | alt a b => a.laterAlternatives ++ [b]
  | _ => []

theorem Guarded.not_reads {r : Regex} (h : r.Guarded) {name : List Char}
    (hdot : name.head? = some '.') (s t : List Char) : ¬r.Reads name s t := by
  induction h generalizing t with
  | anchors =>
      intro hex
      obtain ⟨u, ⟨_, -, hname, hu⟩, hhead, -⟩ := hex
      exact hhead (hu ▸ hname ▸ hdot)
  | seq item h ih =>
      intro hex
      obtain ⟨u, hu, -⟩ := hex
      exact ih u hu

theorem Guarded.laterAlternatives_eq {r : Regex} (h : r.Guarded) : r.laterAlternatives = [] := by
  cases h <;> rfl

/-- Only the later alternatives can match a name with a leading dot. -/
theorem GuardedFirst.reads_iff {r : Regex} (h : r.GuardedFirst) {name : List Char}
    (hdot : name.head? = some '.') (s t : List Char) :
    r.Reads name s t ↔ ∃ a ∈ r.laterAlternatives, a.Reads name s t := by
  induction h with
  | single h => simp [h.not_reads hdot s t, h.laterAlternatives_eq]
  | alt last h ih =>
      simp only [Reads, laterAlternatives, ih, List.mem_append, List.mem_singleton, or_and_right,
        exists_or, exists_eq_left]

theorem GuardedFirst.matches?_iff {r : Regex} (h : r.GuardedFirst) {name : String}
    (hdot : name.toList.head? = some '.') :
    r.matches? name = true ↔ ∃ a ∈ r.laterAlternatives, a.matches? name = true := by
  simp only [matches?, matchesChars_iff, h.reads_iff hdot]
  constructor
  · intro hex
    obtain ⟨t, a, ha, hreads⟩ := hex
    exact ⟨a, ha, t, hreads⟩
  · intro hex
    obtain ⟨a, ha, t, hreads⟩ := hex
    exact ⟨t, a, ha, hreads⟩

/-! ## Guarded frames -/

namespace Frame

/-- The first alternative of the frame is guarded. -/
def Guarded (f : Frame) : Prop :=
  match f.complete with
  | none => f.current.Guarded
  | some r => r.GuardedFirst

/-- The number of bars that have been read in the frame. -/
def bars (f : Frame) : Nat :=
  match f.complete with
  | none => 0
  | some r => r.laterAlternatives.length + 1

theorem guardedFirst_body {f : Frame} (h : f.Guarded) : f.body.GuardedFirst := by
  obtain ⟨position, complete, current⟩ := f
  cases complete with
  | none => exact .single h
  | some r => exact .alt current h

theorem length_laterAlternatives_body {f : Frame} (h : f.Guarded) :
    f.body.laterAlternatives.length = f.bars := by
  obtain ⟨position, complete, current⟩ := f
  cases complete with
  | none => exact congrArg List.length h.laterAlternatives_eq
  | some r => exact List.length_append

/-- From the one frame to the other, the guard is kept and this many bars are read. -/
def Grows (f : Frame) (n : Nat) (g : Frame) : Prop :=
  f.Guarded → g.Guarded ∧ g.bars = f.bars + n

theorem grows_refl (f : Frame) : f.Grows 0 f := fun h => ⟨h, rfl⟩

theorem Grows.trans {f g k : Frame} {m n : Nat} (hg : f.Grows m g) (hk : g.Grows n k) :
    f.Grows (m + n) k := by
  intro h
  obtain ⟨hguarded, hbars⟩ := hg h
  obtain ⟨hguarded', hbars'⟩ := hk hguarded
  exact ⟨hguarded', by omega⟩

theorem grows_push (f : Frame) (item : Regex) : f.Grows 0 (f.push item) := by
  obtain ⟨position, complete, current⟩ := f
  cases complete with
  | none => exact fun h => ⟨.seq item h, rfl⟩
  | some r => exact fun h => ⟨h, rfl⟩

/-- A star repeats a character set, and so it never takes the guard. -/
theorem grows_star {f g : Frame} (h : f.star? = some g) : f.Grows 0 g := by
  obtain ⟨position, complete, current⟩ := f
  unfold star? at h
  split at h
  · next before s hcurrent =>
      cases h
      cases complete with
      | some r => exact fun h => ⟨h, rfl⟩
      | none =>
          intro hguarded
          have hseq : Regex.Guarded (.seq before (.set s)) := hcurrent ▸ hguarded
          -- the item that is repeated is a set, so it is not the guard
          cases hseq with
          | seq _ hbefore => exact ⟨.seq _ hbefore, rfl⟩
  · cases h

theorem grows_bar (f : Frame) : f.Grows 1 f.bar :=
  fun h => ⟨guardedFirst_body h, congrArg (· + 1) (length_laterAlternatives_body h)⟩

end Frame

/-! ## Reading -/

namespace Reader

/-- The frame of the whole expression. -/
def bottom (r : Reader) : Frame := r.outer.getLastD r.frame

/-- The reader is outside of all groups, guards and sets. -/
def isLoose (r : Reader) : Bool := r.mode = .text ∧ r.outer = []

theorem grows_bottom {f g : Frame} (h : f.Grows 0 g) (outer : List Frame) :
    (outer.getLastD f).Grows 0 (outer.getLastD g) := by
  cases outer with
  | nil => exact h
  | cons o outer => exact Frame.grows_refl _

theorem grows_push (r : Reader) (item : Regex) : r.bottom.Grows 0 (r.push item).bottom :=
  grows_bottom (Frame.grows_push r.frame item) r.outer

theorem grows_textToken_of_ne {r r' : Reader} {t : Token} (ht : t.isPlain '|' = false)
    (h : r.textToken t = .ok r') : r.bottom.Grows 0 r'.bottom := by
  unfold textToken at h
  split at h
  · split at h
    · cases h
      exact grows_push r .finish
    · split at h
      · cases h
      · cases h
        exact grows_push r (.char t.char)
  · next hplain =>
      split at h
      · cases h
        exact Frame.grows_refl r.bottom
      · split at h
        · cases h
        · next f outer houter =>
            -- the parenthesis closes a group inside `f`, which may be the whole expression
            cases h
            have hbottom : r.bottom = outer.getLastD f := by
              rw [bottom, houter, List.getLastD_cons]
            rw [hbottom]
            exact grows_bottom (Frame.grows_push f _) outer
      · next hbar => simp [Token.isPlain, hplain, hbar] at ht
      · split at h
        · next f hstar =>
            cases h
            exact grows_bottom (Frame.grows_star hstar) r.outer
        · cases h
      · cases h
        exact grows_push r .start
      · cases h
        exact Frame.grows_refl r.bottom
      · cases h
        exact grows_push r (.char t.char)

theorem grows_bar {r r' : Reader} (hmode : r.mode = .text)
    (h : r.textToken ⟨false, '|'⟩ = .ok r') :
    r.bottom.Grows (if r.isLoose then 1 else 0) r'.bottom := by
  obtain ⟨position, escaping, mode, frame, outer⟩ := r
  cases hmode
  cases h
  cases outer with
  | nil => exact Frame.grows_bar frame
  | cons o outer => exact Frame.grows_refl _

theorem grows_textToken {r r' : Reader} {t : Token} (hmode : r.mode = .text)
    (h : r.textToken t = .ok r') :
    r.bottom.Grows (if t.isPlain '|' ∧ r.isLoose then 1 else 0) r'.bottom := by
  by_cases hbar : t.isPlain '|' = true
  · have ht : t = ⟨false, '|'⟩ := by
      obtain ⟨escaped, c⟩ := t
      cases escaped <;> simp_all [Token.isPlain]
    subst ht
    simpa [Token.isPlain] using grows_bar hmode h
  · rw [if_neg fun hloose => hbar hloose.1]
    exact grows_textToken_of_ne (Bool.not_eq_true _ ▸ hbar) h

theorem grows_setMember {r r' : Reader} {s : SetReader} {t : Token}
    (h : r.setMember s t = .ok r') : r.bottom.Grows 0 r'.bottom := by
  unfold setMember at h
  split at h
  · cases h
  · cases h
    exact Frame.grows_refl r.bottom

theorem grows_setRange {r r' : Reader} {s : SetReader} {lo hi : Token} {position : Nat}
    (h : r.setRange s lo position hi = .ok r') : r.bottom.Grows 0 r'.bottom := by
  unfold setRange at h
  split at h
  · cases h
  · split at h
    · cases h
    · cases h
      exact Frame.grows_refl r.bottom

theorem grows_setToken {r r' : Reader} {s : SetReader} {t : Token}
    (h : r.setToken s t = .ok r') : r.bottom.Grows 0 r'.bottom := by
  unfold setToken at h
  split at h
  · split at h
    · cases h
      exact Frame.grows_refl r.bottom
    · exact grows_setMember h
  · exact grows_setMember h
  · split at h
    · cases h
      exact Frame.grows_refl r.bottom
    · split at h
      · cases h
        exact grows_push r _
      · exact grows_setMember h
  · split at h
    · cases h
      exact grows_push r _
    · exact grows_setRange h
  · split at h
    · cases h
      exact grows_push r _
    · exact grows_setMember h

theorem grows_modeToken {r r' : Reader} {t : Token} (h : r.modeToken t = .ok r') :
    r.bottom.Grows (if t.isPlain '|' ∧ r.isLoose then 1 else 0) r'.bottom := by
  by_cases hmode : r.mode = .text
  · rw [modeToken, hmode] at h
    exact grows_textToken hmode h
  rw [if_neg (by simp [isLoose, hmode])]
  unfold modeToken at h
  split at h
  · next htext => exact absurd htext hmode
  · next position _ =>
      split at h
      · cases h
        exact Frame.grows_refl r.bottom
      · -- the group is opened now, so a bar belongs to it
        have hgrows := grows_textToken rfl h
        have hbottom : (r.openGroup position).bottom = r.bottom := List.getLastD_cons
        rw [hbottom, if_neg (by simp [isLoose, openGroup])] at hgrows
        exact hgrows
  · split at h
    · cases h
      exact grows_push r .notDot
    · split at h
      · cases h
        exact Frame.grows_refl r.bottom
      · cases h
  · exact grows_setToken h

/-! ### Characters -/

theorem grows_token {r r' : Reader} {t : Token} (h : r.token t = .ok r') :
    r'.escaping = false ∧
      r.bottom.Grows (if t.isPlain '|' ∧ r.isLoose then 1 else 0) r'.bottom := by
  unfold token at h
  cases hmode : r.modeToken t with
  | error e => simp [hmode, Except.map] at h
  | ok s =>
      rw [hmode] at h
      cases h
      have hgrows := grows_modeToken hmode
      exact ⟨rfl, hgrows⟩

/-- What a character does to the whole expression: a bar outside of all groups begins another
    alternative, and everything else leaves the alternatives as they are. -/
theorem grows_step {r r' : Reader} {c : Char} (h : r.step c = .ok r') :
    r'.escaping = (!r.escaping && c = '\\') ∧
      r.bottom.Grows (if r.escaping = false ∧ c = '|' ∧ r.isLoose then 1 else 0) r'.bottom := by
  unfold step at h
  split at h
  · next hesc =>
      obtain ⟨hesc', hgrows⟩ := grows_token h
      simp only [hesc, hesc', Bool.not_true, Bool.false_and, reduceCtorEq, false_and, if_false]
      exact ⟨trivial, hgrows⟩
  · next hesc =>
      rw [Bool.not_eq_true] at hesc
      split at h
      · next hb =>
          cases h
          subst hb
          simp only [hesc]
          exact ⟨rfl, Frame.grows_refl r.bottom⟩
      · next hb =>
          obtain ⟨hesc', hgrows⟩ := grows_token h
          simp only [hesc, hesc', hb, decide_false, Bool.and_false, true_and]
          simpa [Token.isPlain] using hgrows

/-! ### Texts -/

theorem exists_of_bind_eq_ok {ε α β : Type} {x : Except ε α} {f : α → Except ε β} {b : β}
    (h : x >>= f = .ok b) : ∃ a, x = .ok a ∧ f a = .ok b := by
  cases x with
  | error e => cases h
  | ok a => exact ⟨a, rfl, h⟩

theorem exists_step_of_foldlM {r r' : Reader} {c : Char} {cs : List Char}
    (h : (c :: cs).foldlM step r = .ok r') :
    ∃ s, r.step c = .ok s ∧ cs.foldlM step s = .ok r' := by
  rw [List.foldlM_cons] at h
  exact exists_of_bind_eq_ok h

theorem exists_of_foldlM_append {r r' : Reader} {u v : List Char}
    (h : (u ++ v).foldlM step r = .ok r') :
    ∃ s, u.foldlM step r = .ok s ∧ v.foldlM step s = .ok r' := by
  rw [List.foldlM_append] at h
  exact exists_of_bind_eq_ok h

theorem grows_foldlM {text : List Char} (hbar : '|' ∉ text) {r r' : Reader}
    (h : text.foldlM step r = .ok r') : r.bottom.Grows 0 r'.bottom := by
  induction text generalizing r with
  | nil =>
      cases h
      exact Frame.grows_refl _
  | cons c cs ih =>
      obtain ⟨s, hs, hcs⟩ := exists_step_of_foldlM h
      rw [List.mem_cons, not_or] at hbar
      have hstep := (grows_step hs).2
      rw [if_neg fun hloose => hbar.1 hloose.2.1.symm] at hstep
      exact hstep.trans (ih hbar.2 hcs)

/-- Whether the reader stands behind a backslash depends on the text alone. -/
theorem escaping_foldlM {text : List Char} {r r' : Reader} (h : text.foldlM step r = .ok r') :
    r'.escaping = text.foldl (fun escaping c => !escaping && c = '\\') r.escaping := by
  induction text generalizing r with
  | nil =>
      cases h
      rfl
  | cons c cs ih =>
      obtain ⟨s, hs, hcs⟩ := exists_step_of_foldlM h
      rw [List.foldl_cons, ih hcs, (grows_step hs).1]

theorem eq_body_of_finish {r : Reader} {e : Regex} (h : r.finish = .ok e) : e = r.bottom.body := by
  unfold finish at h
  split at h
  · cases h
  · split at h
    · next houter =>
        cases h
        rw [bottom, houter]
        rfl
    all_goals cases h

/-- The reader behind the anchor and the guard. -/
def guarded : Reader :=
  ⟨7, false, .text, ⟨0, none, .seq (.seq .empty .start) .notDot⟩, []⟩

end Reader

end DirGlob.Regex
