import DirGlob.Pattern.Matcher

set_option autoImplicit false

/-! # Reading fragments back

The reader of regular expressions works on characters and keeps positions for its reports. Between
two fragments of a pattern all that matters of it is the *nest* of groups that are open. This module
says what the text of every fragment does to the nest (`takes_fragment`). -/

namespace DirGlob.Regex

/-- The frame without its position. -/
def Frame.unplaced (f : Frame) : Frame := { f with position := 0 }

/-- The groups that are open, innermost first; the last of all is the whole expression. Positions
    do not matter, so all of them are zero. -/
structure Nest where
  inner : Frame
  outer : List Frame

namespace Nest

/-- The nest before the text. -/
def empty : Nest := ⟨.opened 0, []⟩

/-- Adds an item to the innermost group. -/
def push (n : Nest) (item : Regex) : Nest := { n with inner := n.inner.push item }

/-- Opens a group. -/
def openGroup (n : Nest) : Nest := ⟨.opened 0, n.inner :: n.outer⟩

/-- Closes the innermost group. -/
def closeGroup (n : Nest) : Nest :=
  match n.outer with
  | [] => n
  | f :: outer => ⟨f.push (.group n.inner.body), outer⟩

/-- Begins another alternative of the innermost group. -/
def bar (n : Nest) : Nest := { n with inner := n.inner.bar }

end Nest

/-- Every character but the separator. -/
def notSeparator : CharSet := ⟨[.single '/'], true⟩

/-! ## Readers between fragments -/

namespace Reader

/-- The nest that a reader has read. -/
def nest (r : Reader) : Nest := ⟨r.frame.unplaced, r.outer.map Frame.unplaced⟩

/-- The reader stands between two fragments and holds the nest: where no group is open it can stop,
    and unless a question mark follows it goes on like a reader outside guards and sets that has
    read the nest. (Behind a parenthesis a reader waits for the next token before it opens the
    group.) -/
structure Holds (r : Reader) (n : Nest) : Prop where
  escaping : r.escaping = false
  finish : n.outer = [] → r.finish = .ok n.inner.body
  token : ∃ s : Reader, s.mode = .text ∧ s.nest = n ∧
    ∀ (escaping : Bool) (t : Token), t.isPlain '?' = false →
      Reader.token { r with escaping } t = Reader.token { s with escaping } t

theorem holds_nest {r : Reader} (hesc : r.escaping = false) (hmode : r.mode = .text) :
    r.Holds r.nest := by
  refine ⟨hesc, ?_, r, hmode, rfl, fun _ _ _ => rfl⟩
  intro houter
  have hnil : r.outer = [] := List.map_eq_nil_iff.1 houter
  rw [Reader.finish, hesc, hmode, hnil]
  rfl

theorem step_plain {r : Reader} {c : Char} (hesc : r.escaping = false) (hb : c ≠ '\\') :
    r.step c = Reader.token { r with escaping := false } ⟨false, c⟩ := by
  obtain ⟨position, escaping, mode, frame, outer⟩ := r
  cases hesc
  simp [step, hb]

theorem step_backslash {r : Reader} (hesc : r.escaping = false) :
    r.step '\\' = .ok { r with escaping := true } := by
  simp [step, hesc]

/-- A character of the text is a token of its own, unless it is a backslash. -/
theorem foldlM_plain {r : Reader} {c : Char} (hesc : r.escaping = false) (hb : c ≠ '\\') :
    [c].foldlM step r = Reader.token { r with escaping := false } ⟨false, c⟩ := by
  rw [List.foldlM_cons, step_plain hesc hb]
  exact bind_pure (Reader.token { r with escaping := false } ⟨false, c⟩)

/-- A backslash makes one token with the character behind it. -/
theorem foldlM_backslash {r : Reader} (hesc : r.escaping = false) (c : Char) :
    ['\\', c].foldlM step r = Reader.token { r with escaping := true } ⟨true, c⟩ := by
  rw [List.foldlM_cons, step_backslash hesc]
  exact bind_pure (Reader.token { r with escaping := true } ⟨true, c⟩)

theorem token_of_text {r : Reader} (h : r.mode = .text) (t : Token) :
    r.token t = (r.textToken t).map fun after =>
      { after with position := r.position + t.width, escaping := false } := by
  rw [token, modeToken, h]

theorem holds_opened {r : Reader} {position : Nat} (hesc : r.escaping = false)
    (hmode : r.mode = .opened position) : r.Holds r.nest.openGroup := by
  -- the group is opened by the next token, unless that is the question mark of a guard
  refine ⟨hesc, ?_, r.openGroup position, rfl, rfl, ?_⟩
  · intro houter
    cases houter
  intro escaping t ht
  rw [token, modeToken]
  simp only [hmode, ht]
  rfl

/-- A reader that holds a nest reads a character like one that is outside guards and sets. -/
theorem Holds.exists_foldlM_plain {r : Reader} {n : Nest} (h : r.Holds n) {c : Char} (hb : c ≠ '\\')
    (hq : c ≠ '?') :
    ∃ s : Reader, s.mode = .text ∧ s.nest = n ∧
      [c].foldlM step r = (s.textToken ⟨false, c⟩).map fun after =>
        { after with position := s.position + 1, escaping := false } := by
  obtain ⟨hesc, -, s, hmode, hnest, htok⟩ := h
  have hplain : Token.isPlain ⟨false, c⟩ '?' = false := by simp [Token.isPlain, hq]
  refine ⟨{ s with escaping := false }, hmode, hnest, ?_⟩
  rw [foldlM_plain hesc hb, htok false _ hplain,
    token_of_text (r := { s with escaping := false }) hmode]
  rfl

/-- It reads an escaped character so, too. -/
theorem Holds.exists_foldlM_backslash {r : Reader} {n : Nest} (h : r.Holds n) (c : Char) :
    ∃ s : Reader, s.mode = .text ∧ s.nest = n ∧
      ['\\', c].foldlM step r = (s.textToken ⟨true, c⟩).map fun after =>
        { after with position := s.position + 2, escaping := false } := by
  obtain ⟨hesc, -, s, hmode, hnest, htok⟩ := h
  refine ⟨{ s with escaping := true }, hmode, hnest, ?_⟩
  rw [foldlM_backslash hesc, htok true _ rfl,
    token_of_text (r := { s with escaping := true }) hmode]
  rfl

end Reader

/-! ## What a text does to the nest -/

/-- Reading the text leads from the one nest to the other. -/
def Nest.Takes (n : Nest) (text : List Char) (m : Nest) : Prop :=
  ∀ r : Reader, r.Holds n → ∃ r' : Reader, text.foldlM Reader.step r = .ok r' ∧ r'.Holds m

namespace Nest

theorem holds_start : Reader.start.Holds empty := Reader.holds_nest rfl rfl

theorem takes_nil (n : Nest) : n.Takes [] n := fun r hr => ⟨r, rfl, hr⟩

theorem takes_append {n m k : Nest} {u v : List Char} (hu : n.Takes u m) (hv : m.Takes v k) :
    n.Takes (u ++ v) k := by
  intro r hr
  obtain ⟨s, hs, hsm⟩ := hu r hr
  obtain ⟨t, ht, htk⟩ := hv s hsm
  refine ⟨t, ?_, htk⟩
  rw [List.foldlM_append, hs]
  exact ht

/-- A character of the text that a reader of the nest takes as a token of its own. -/
theorem takes_plain {n m : Nest} {c : Char} (hb : c ≠ '\\') (hq : c ≠ '?')
    (h : ∀ s : Reader, s.mode = .text → s.nest = n →
      ∃ s' : Reader, s.textToken ⟨false, c⟩ = .ok s' ∧
        ∀ position, Reader.Holds { s' with position, escaping := false } m) :
    n.Takes [c] m := by
  intro r hr
  obtain ⟨s, hmode, hnest, hread⟩ := hr.exists_foldlM_plain hb hq
  obtain ⟨s', hs', hm⟩ := h s hmode hnest
  refine ⟨_, ?_, hm (s.position + 1)⟩
  rw [hread, hs']
  rfl

/-- An escaped character of the text, which is one token. -/
theorem takes_backslash {n m : Nest} {c : Char}
    (h : ∀ s : Reader, s.mode = .text → s.nest = n →
      ∃ s' : Reader, s.textToken ⟨true, c⟩ = .ok s' ∧
        ∀ position, Reader.Holds { s' with position, escaping := false } m) :
    n.Takes ['\\', c] m := by
  intro r hr
  obtain ⟨s, hmode, hnest, hread⟩ := hr.exists_foldlM_backslash c
  obtain ⟨s', hs', hm⟩ := h s hmode hnest
  refine ⟨_, ?_, hm (s.position + 2)⟩
  rw [hread, hs']
  rfl

/-! ## Fragments -/

/-- A character that stands for itself outside character sets, wherever it is read. -/
def isOrdinary (c : Char) : Bool := !"\\()|*^[?".toList.contains c

theorem takes_char (n : Nest) {c : Char} (h : isOrdinary c = true) :
    n.Takes [c] (n.push (.char c)) := by
  simp only [isOrdinary, Bool.not_eq_true', List.contains_eq_mem, decide_eq_false_iff_not] at h
  have hne : ∀ d ∈ "\\()|*^[?".toList, c ≠ d := fun d hd he => h (he ▸ hd)
  refine takes_plain (hne '\\' (by decide)) (hne '?' (by decide)) ?_
  rintro s hmode rfl
  refine ⟨s.push (.char c), ?_, fun position => Reader.holds_nest rfl rfl⟩
  unfold Reader.textToken
  simp only [Bool.false_eq_true, if_false]
  split
  · exact absurd rfl (hne '(' (by decide))
  · exact absurd rfl (hne ')' (by decide))
  · exact absurd rfl (hne '|' (by decide))
  · exact absurd rfl (hne '*' (by decide))
  · exact absurd rfl (hne '^' (by decide))
  · exact absurd rfl (hne '[' (by decide))
  · rfl

/-- An escaped character stands for itself unless it is a letter or a digit. -/
theorem takes_escaped (n : Nest) {c : Char} (h : c.isAlphanum = false) :
    n.Takes ['\\', c] (n.push (.char c)) := by
  have hZ : c ≠ 'Z' := by
    rintro rfl
    revert h
    decide
  apply takes_backslash
  rintro s hmode rfl
  refine ⟨s.push (.char c), ?_, fun position => Reader.holds_nest rfl rfl⟩
  simp [Reader.textToken, Token.isLetterEscape, hZ, h]

theorem takes_openGroup (n : Nest) : n.Takes ['('] n.openGroup := by
  apply takes_plain (by decide) (by decide)
  rintro s hmode rfl
  exact ⟨_, rfl, fun position => Reader.holds_opened rfl rfl⟩

theorem takes_closeGroup {n : Nest} (h : n.outer ≠ []) : n.Takes [')'] n.closeGroup := by
  apply takes_plain (by decide) (by decide)
  rintro s hmode rfl
  obtain ⟨position, escaping, mode, frame, outer⟩ := s
  cases outer with
  | nil => exact absurd rfl h
  | cons f outer =>
      cases hmode
      exact ⟨_, rfl, fun position => Reader.holds_nest rfl rfl⟩

theorem takes_bar (n : Nest) : n.Takes ['|'] n.bar := by
  apply takes_plain (by decide) (by decide)
  rintro s hmode rfl
  exact ⟨_, rfl, fun position => Reader.holds_nest rfl hmode⟩

theorem takes_start (n : Nest) : n.Takes ['^'] (n.push .start) := by
  apply takes_plain (by decide) (by decide)
  rintro s hmode rfl
  exact ⟨_, rfl, fun position => Reader.holds_nest rfl rfl⟩

theorem takes_finish (n : Nest) : n.Takes ['\\', 'Z'] (n.push .finish) := by
  apply takes_backslash
  rintro s hmode rfl
  exact ⟨_, rfl, fun position => Reader.holds_nest rfl rfl⟩

theorem takes_one (n : Nest) : n.Takes ['[', '^', '/', ']'] (n.push (.set notSeparator)) := by
  rintro r ⟨hesc, -, s, hmode, rfl, htok⟩
  obtain ⟨position, escaping, mode, frame, outer⟩ := s
  cases hmode
  -- behind the bracket the reader is inside a set, where the rest can be computed
  have hread : ['[', '^', '/', ']'].foldlM Reader.step r = .ok
      ⟨position + 4, false, .text, frame.push (.set notSeparator), outer⟩ := by
    rw [List.foldlM_cons, Reader.step_plain hesc (by decide), htok false _ rfl]
    rfl
  exact ⟨_, hread, Reader.holds_nest rfl rfl⟩

theorem takes_run (n : Nest) : n.Takes ['[', '^', '/', ']', '*'] (n.push (.run notSeparator)) := by
  rintro r ⟨hesc, -, s, hmode, rfl, htok⟩
  obtain ⟨position, escaping, mode, frame, outer⟩ := s
  cases hmode
  have hread : ['[', '^', '/', ']', '*'].foldlM Reader.step r = .ok
      ⟨position + 5, false, .text, frame.push (.run notSeparator), outer⟩ := by
    rw [List.foldlM_cons, Reader.step_plain hesc (by decide), htok false _ rfl]
    rfl
  exact ⟨_, hread, Reader.holds_nest rfl rfl⟩

theorem takes_guard (n : Nest) : n.Takes Pattern.guardText (n.push .notDot) := by
  rintro r ⟨hesc, -, s, hmode, rfl, htok⟩
  obtain ⟨position, escaping, mode, frame, outer⟩ := s
  cases hmode
  have hread : Pattern.guardText.foldlM Reader.step r = .ok
      ⟨position + 6, false, .text, frame.push .notDot, outer⟩ := by
    rw [Pattern.guardText, List.foldlM_cons, Reader.step_plain hesc (by decide), htok false _ rfl]
    rfl
  exact ⟨_, hread, Reader.holds_nest rfl rfl⟩

/-- The nest after a fragment. -/
def after (n : Nest) : Pattern.Fragment → Nest
  | .char c | .escaped c => n.push (.char c)
  | .separator guarded =>
    if guarded then (n.push (.char '/')).push .notDot else n.push (.char '/')
  | .run => n.push (.run notSeparator)
  | .one => n.push (.set notSeparator)
  | .openGroup => n.openGroup
  | .closeGroup => n.closeGroup
  | .strayClose => n.push (.char '}')
  | .bar => n.bar

/-- The fragment can be read where the nest is open. -/
def Admits (n : Nest) : Pattern.Fragment → Prop
  | .char c => isOrdinary c = true
  | .escaped c => c.isAlphanum = false
  | .closeGroup => n.outer ≠ []
  | _ => True

theorem takes_fragment {n : Nest} {f : Pattern.Fragment} (h : n.Admits f) :
    n.Takes f.text (n.after f) := by
  cases f with
  | char c => exact takes_char n h
  | escaped c => exact takes_escaped n h
  | separator guarded =>
      have hslash : n.Takes ['/'] (n.push (.char '/')) := takes_char n (by decide)
      cases guarded with
      | false => exact hslash
      | true => exact takes_append hslash (takes_guard _)
  | run => exact takes_run n
  | one => exact takes_one n
  | openGroup => exact takes_openGroup n
  | closeGroup => exact takes_closeGroup h
  | strayClose => exact takes_escaped n (by decide)
  | bar => exact takes_bar n

end Nest

end DirGlob.Regex
