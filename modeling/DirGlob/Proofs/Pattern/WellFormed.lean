import DirGlob.Proofs.Pattern.Compiled
import DirGlob.Proofs.Regex.Outline

set_option autoImplicit false

/-! # Well-formed texts

The reader of an expression and the outline of its text go through the text side by side
(`Reader.At`). Outside of all sets the reader holds a nest, and `Nest.takes_fragment` says what
a fragment does to it; inside a set it goes token by token (`Reader.outlined_setToken`). A fragment
may lead into a set or out of it: an opening bracket is passed on as it is, and a wildcard brings a
closing bracket along, which closes whatever set it comes to stand in.

So a pattern compiles exactly if the tokens of its fragments have an outline that ends outside of
all sets and groups (`exists_ofPattern_iff`). -/

namespace DirGlob.Regex

/-! ## Readers and outlines -/

/-- A position in a set is a spot in the text. -/
def SetPhase.spot : SetPhase → Spot
  | opening => .opening
  | first => .first
  | member lo _ => .member lo.char
  | dash lo _ => .dash lo.char
  | next => .next

theorem SetPhase.isInside_spot (phase : SetPhase) : phase.spot.isInside = true := by
  cases phase <;> rfl

/-- Where a reader between two tokens stands. -/
inductive Reader.At (r : Reader) : Outline → Prop
  | outside {n : Nest} (h : r.Holds n) : At r ⟨.outside, n.outer.length⟩
  | inside {s : SetReader} (hesc : r.escaping = false) (hmode : r.mode = .set s) :
      At r ⟨s.phase.spot, r.outer.length⟩

/-- Reading and outlining come to the same: both fail, or the reader stands where the outline
    says. -/
inductive Outlined : Except (Fault × Nat) Reader → Option Outline → Prop
  | fails (e : Fault × Nat) : Outlined (.error e) none
  | goes {r : Reader} {o : Outline} (h : r.At o) : Outlined (.ok r) (some o)

theorem Outlined.bind {x : Except (Fault × Nat) Reader} {y : Option Outline} (h : Outlined x y)
    {f : Reader → Except (Fault × Nat) Reader} {g : Outline → Option Outline}
    (hfg : ∀ r o, y = some o → r.At o → Outlined (f r) (g o)) : Outlined (x >>= f) (y >>= g) := by
  cases h with
  | fails e => exact .fails e
  | goes h => exact hfg _ _ rfl h

/-- One text after the other. -/
theorem Outlined.append {r : Reader} {o : Outline} {u v : List Char} {ts us : List Token}
    (hu : Outlined (u.foldlM Reader.step r) (ts.foldlM Outline.after o))
    (hv : ∀ r' o', ts.foldlM Outline.after o = some o' → r'.At o' →
      Outlined (v.foldlM Reader.step r') (us.foldlM Outline.after o')) :
    Outlined ((u ++ v).foldlM Reader.step r) ((ts ++ us).foldlM Outline.after o) := by
  rw [List.foldlM_append, List.foldlM_append]
  exact hu.bind hv

/-! ## Inside a set -/

namespace Reader

variable {r : Reader}

theorem at_of_text (hesc : r.escaping = false) (hmode : r.mode = .text) :
    r.At ⟨.outside, r.outer.length⟩ := by
  have h := At.outside (holds_nest hesc hmode)
  rwa [nest, List.length_map] at h

theorem token_of_set {s : SetReader} (hmode : r.mode = .set s) (t : Token) :
    r.token t = (r.setToken s t).map fun after =>
      { after with position := r.position + t.width, escaping := false } := by
  rw [token, modeToken, hmode]

/-- The reader stays in the set. -/
theorem outlined_set (r : Reader) (s : SetReader) (position : Nat) :
    Outlined (.ok { r with mode := .set s, position, escaping := false })
      (some ⟨s.phase.spot, r.outer.length⟩) :=
  .goes (.inside rfl rfl)

/-- The reader takes a member. -/
theorem outlined_setMember (r : Reader) (s : SetReader) {t : Token} (ht : t.isLetterEscape = false)
    (position : Nat) :
    Outlined ((r.setMember s t).map fun after => { after with position, escaping := false })
      (some ⟨.member t.char, r.outer.length⟩) := by
  rw [setMember, ht]
  exact outlined_set r { s with phase := .member t r.position } position

/-- The reader takes the upper end of a range. -/
theorem outlined_setRange (r : Reader) (s : SetReader) (lo : Token) (place : Nat) {hi : Token}
    (ht : hi.isLetterEscape = false) (position : Nat) :
    Outlined
      ((r.setRange s lo place hi).map fun after => { after with position, escaping := false })
      (if decide (hi.char < lo.char) = true then none else some ⟨.next, r.outer.length⟩) := by
  rw [setRange, ht]
  by_cases hrange : hi.char < lo.char
  · simp only [hrange]
    exact .fails _
  · simp only [hrange]
    exact outlined_set r { s with items := .range lo.char hi.char :: s.items, phase := .next } _

/-- The reader comes out of the set. -/
theorem outlined_closeSet (r : Reader) (s : SetReader) (last : List CharSet.Item) (position : Nat) :
    Outlined (.ok { r.closeSet s last with position, escaping := false })
      (some ⟨.outside, r.outer.length⟩) :=
  .goes (at_of_text rfl rfl)

/-- Inside a set the outline follows the reader token by token. -/
theorem outlined_setToken {s : SetReader} (hmode : r.mode = .set s) {t : Token}
    (ht : t.isLetterEscape = false) :
    Outlined (r.token t) (Outline.after ⟨s.phase.spot, r.outer.length⟩ t) := by
  rw [token_of_set hmode, setToken]
  cases hphase : s.phase with
  | opening =>
      by_cases hcaret : t.isPlain '^' = true
      · simp only [hcaret, Outline.after, SetPhase.spot, Spot.range?, Spot.after]
        exact outlined_set r _ _
      · simp only [hcaret, Outline.after, SetPhase.spot, Spot.range?, Spot.after]
        exact outlined_setMember r s ht _
  | first => exact outlined_setMember r s ht _
  | member lo position =>
      by_cases hdash : t.isPlain '-' = true
      · simp only [hdash, Outline.after, SetPhase.spot, Spot.range?, Spot.after]
        exact outlined_set r _ _
      by_cases hclose : t.isPlain ']' = true
      · simp only [hdash, hclose, Outline.after, SetPhase.spot, Spot.range?, Spot.after]
        exact outlined_closeSet r s _ _
      · simp only [hdash, hclose, Outline.after, SetPhase.spot, Spot.range?, Spot.after]
        exact outlined_setMember r _ ht _
  | dash lo position =>
      by_cases hclose : t.isPlain ']' = true
      · simp only [hclose, Outline.after, SetPhase.spot, Spot.range?, Spot.after]
        exact outlined_closeSet r s _ _
      · simp only [hclose, Outline.after, SetPhase.spot, Spot.range?, Spot.after]
        exact outlined_setRange r s lo position ht _
  | next =>
      by_cases hclose : t.isPlain ']' = true
      · simp only [hclose, Outline.after, SetPhase.spot, Spot.range?, Spot.after]
        exact outlined_closeSet r s _ _
      · simp only [hclose, Outline.after, SetPhase.spot, Spot.range?, Spot.after]
        exact outlined_setMember r s ht _

theorem At.exists_set {o : Outline} (h : r.At o) (hspot : o.spot.isInside = true) :
    ∃ s : SetReader, r.escaping = false ∧ r.mode = .set s ∧ o = ⟨s.phase.spot, r.outer.length⟩ := by
  cases h with
  | outside h => cases hspot
  | inside hesc hmode => exact ⟨_, hesc, hmode, rfl⟩

variable {o : Outline}

theorem outlined_plain (h : r.At o) (hspot : o.spot.isInside = true) {c : Char} (hb : c ≠ '\\') :
    Outlined ([c].foldlM step r) ([⟨false, c⟩].foldlM Outline.after o) := by
  obtain ⟨s, hesc, hmode, rfl⟩ := h.exists_set hspot
  rw [foldlM_plain hesc hb, List.foldlM_cons]
  simp only [List.foldlM_nil, bind_pure]
  exact outlined_setToken (r := { r with escaping := false }) hmode rfl

theorem outlined_backslash (h : r.At o) (hspot : o.spot.isInside = true) {c : Char}
    (hc : c.isAlphanum = false) :
    Outlined (['\\', c].foldlM step r) ([⟨true, c⟩].foldlM Outline.after o) := by
  obtain ⟨s, hesc, hmode, rfl⟩ := h.exists_set hspot
  rw [foldlM_backslash hesc, List.foldlM_cons]
  simp only [List.foldlM_nil, bind_pure]
  exact outlined_setToken (r := { r with escaping := true }) hmode hc

/-- The outline follows a text inside a set that does not close it. -/
theorem outlined_text {text : List Char} (hend : Pattern.endsInEscape text = false)
    (htokens : ∀ t ∈ tokens text, t.isLetterEscape = false ∧ t.isPlain ']' = false)
    {o : Outline} (hspot : o.spot.isInside = true) (h : r.At o) :
    Outlined (text.foldlM step r) ((tokens text).foldlM Outline.after o) := by
  induction text using Pattern.escapeInduction generalizing r o with
  | nil => exact .goes h
  | lone => cases hend
  | escape c cs ih =>
      simp only [tokens, List.forall_mem_cons] at htokens
      obtain ⟨⟨hc, hclose⟩, htokens⟩ := htokens
      refine Outlined.append (outlined_backslash h hspot hc) ?_
      intro r' o' ho' hr'
      refine ih hend htokens ?_ hr'
      rw [Outline.spot_of_foldlM ho']
      exact Spot.isInside_after hspot hclose
  | cons c cs hc ih =>
      rw [tokens_cons hc, List.forall_mem_cons] at htokens
      obtain ⟨⟨-, hclose⟩, htokens⟩ := htokens
      rw [tokens_cons hc]
      refine Outlined.append (outlined_plain h hspot hc) ?_
      intro r' o' ho' hr'
      refine ih (by rwa [Pattern.endsInEscape_cons hc] at hend) htokens ?_ hr'
      rw [Outline.spot_of_foldlM ho']
      exact Spot.isInside_after hspot hclose

/-! ### Wildcards -/

theorem outlined_opening_set (hspot : o.spot.isInside = true) (h : r.At o) :
    Outlined (['[', '^', '/'].foldlM step r) ((tokens ['[', '^', '/']).foldlM Outline.after o) :=
  outlined_text rfl (by decide) hspot h

theorem spot_opening_set {o o' : Outline} (hspot : o.spot.isInside = true)
    (h : (tokens ['[', '^', '/']).foldlM Outline.after o = some o') : o'.spot = .member '/' := by
  rw [Outline.spot_of_foldlM h]
  generalize o.spot = s at hspot
  cases s with
  | outside => cases hspot
  | _ => rfl

/-- The closing bracket of a wildcard closes the set that the reader is in. -/
theorem outlined_one (hspot : o.spot.isInside = true) (h : r.At o) :
    Outlined (Pattern.Fragment.one.text.foldlM step r)
      ((tokens Pattern.Fragment.one.text).foldlM Outline.after o) := by
  refine Outlined.append (outlined_opening_set hspot h) ?_
  intro r' o' ho' hr'
  refine outlined_plain hr' ?_ (by decide)
  rw [spot_opening_set hspot ho']
  decide

/-- Behind a closing bracket a star repeats the set. -/
theorem outlined_closing_star (hspot : o.spot = .member '/') (h : r.At o) :
    Outlined ([']', '*'].foldlM step r) ((tokens [']', '*']).foldlM Outline.after o) := by
  obtain ⟨⟨place, negated, items, phase⟩, hesc, hmode, rfl⟩ := h.exists_set (by rw [hspot]; rfl)
  cases phase with
  | member lo start =>
      obtain ⟨position, escaping, mode, frame, outer⟩ := r
      cases hesc
      cases hmode
      have hread : [']', '*'].foldlM step
          ⟨position, false, .set ⟨place, negated, items, .member lo start⟩, frame, outer⟩ = .ok
          ⟨position + 2, false, .text,
            frame.push (.run ⟨items.reverse ++ [.single lo.char], negated⟩), outer⟩ := rfl
      rw [hread]
      exact .goes (at_of_text rfl rfl)
  | _ => cases hspot

/-- The star of a wildcard repeats the set that its bracket closes. -/
theorem outlined_run (hspot : o.spot.isInside = true) (h : r.At o) :
    Outlined (Pattern.Fragment.run.text.foldlM step r)
      ((tokens Pattern.Fragment.run.text).foldlM Outline.after o) := by
  refine Outlined.append (outlined_opening_set hspot h) ?_
  intro r' o' ho' hr'
  exact outlined_closing_star (spot_opening_set hspot ho') hr'

/-! ## Outside of all sets -/

/-- A bracket opens a set. -/
theorem outlined_bracket {n : Nest} (h : r.Holds n) :
    Outlined (['['].foldlM step r) (some ⟨.opening, n.outer.length⟩) := by
  obtain ⟨s, -, rfl, hread⟩ := h.exists_foldlM_plain (c := '[') (by decide) (by decide)
  rw [hread, nest, List.length_map]
  exact .goes (At.inside (s := ⟨s.position, false, [], .opening⟩) rfl rfl)

/-- Where no group is open a parenthesis closes nothing. -/
theorem outlined_unbalanced {n : Nest} (h : r.Holds n) (houter : n.outer = []) :
    Outlined ([')'].foldlM step r) none := by
  obtain ⟨s, -, rfl, hread⟩ := h.exists_foldlM_plain (c := ')') (by decide) (by decide)
  have hnil : s.outer = [] := List.map_eq_nil_iff.1 houter
  rw [hread, textToken]
  simp only [hnil]
  exact .fails _

end Reader

theorem Nest.outline_char {n : Nest} {c : Char} (h : isOrdinary c = true) :
    (tokens [c]).foldlM Outline.after ⟨.outside, n.outer.length⟩
      = some ⟨.outside, n.outer.length⟩ := by
  simp only [isOrdinary, Bool.not_eq_true', List.contains_eq_mem, decide_eq_false_iff_not] at h
  have hne : ∀ d ∈ "\\()|*^[?".toList, c ≠ d := fun d hd he => h (he ▸ hd)
  rw [tokens_cons (hne '\\' (by decide))]
  simp [tokens, Outline.after, Spot.range?, Spot.after, parenthesis, Token.isPlain,
    hne '(' (by decide), hne ')' (by decide), hne '[' (by decide)]

/-- A fragment that can be read leads to as many groups as the nest has behind it. -/
theorem Nest.outline_fragment {n : Nest} {f : Pattern.Fragment} (h : n.Admits f) :
    (tokens f.text).foldlM Outline.after ⟨.outside, n.outer.length⟩
      = some ⟨.outside, (n.after f).outer.length⟩ := by
  cases f with
  | char c => exact outline_char h
  | separator guarded => cases guarded <;> rfl
  | closeGroup =>
      obtain ⟨inner, outer⟩ := n
      cases outer with
      | nil => exact absurd rfl h
      | cons f outer => rfl
  | _ => rfl

theorem Reader.outlined_outside {r : Reader} {n : Nest} (h : r.Holds n) {f : Pattern.Fragment}
    (hf : n.Admits f) :
    Outlined (f.text.foldlM Reader.step r)
      ((tokens f.text).foldlM Outline.after ⟨.outside, n.outer.length⟩) := by
  obtain ⟨r', hread, h'⟩ := Nest.takes_fragment hf r h
  rw [hread, Nest.outline_fragment hf]
  exact .goes (.outside h')

end DirGlob.Regex

namespace DirGlob.Pattern

open Regex (Reader Nest Spot Outline Outlined tokens ranges outsideSets parenthesis)

/-! ## Fragments -/

/-- The fragment stands for an element: a backslash is before no letter and no digit, and a
    character without one is ordinary outside of sets or opens one. -/
def Fragment.IsWritten : Fragment → Prop
  | .char c => c = '[' ∨ Nest.isOrdinary c = true
  | .escaped c => c.isAlphanum = false
  | _ => True

theorem Fragment.IsWritten.admits {f : Fragment} (hf : f.IsWritten) (n : Nest) :
    n.Admits f ∨ f = .char '[' ∨ f = .closeGroup ∧ n.outer = [] := by
  cases f with
  | char c =>
      rcases hf with rfl | hf
      · exact .inr (.inl rfl)
      · exact .inl hf
  | escaped c => exact .inl hf
  | closeGroup =>
      by_cases houter : n.outer = []
      · exact .inr (.inr ⟨rfl, houter⟩)
      · exact .inl houter
  | _ => exact .inl trivial

theorem Fragment.IsWritten.ne_backslash {c : Char} (h : (Fragment.char c).IsWritten) :
    c ≠ '\\' := by
  rintro rfl
  rcases h with h | h
  · exact absurd h (by decide)
  · exact absurd h (by decide)

/-- The outline follows a fragment, in a set and outside. -/
theorem outlined_fragment {f : Fragment} (hf : f.IsWritten) {r : Reader} {o : Outline}
    (h : r.At o) :
    Outlined (f.text.foldlM Reader.step r) ((tokens f.text).foldlM Outline.after o) := by
  by_cases hspot : o.spot.isInside = true
  · cases f with
    | char c =>
        have hb : c ≠ '\\' := Fragment.IsWritten.ne_backslash hf
        rw [Fragment.text, Regex.tokens_cons hb]
        exact Reader.outlined_plain h hspot hb
    | escaped c => exact Reader.outlined_backslash h hspot hf
    | run => exact Reader.outlined_run hspot h
    | one => exact Reader.outlined_one hspot h
    | separator guarded => cases guarded <;> exact Reader.outlined_text rfl (by decide) hspot h
    | _ => exact Reader.outlined_text rfl (by decide) hspot h
  · cases h with
    | inside hesc hmode => exact absurd (Regex.SetPhase.isInside_spot _) hspot
    | @outside n h =>
        rcases hf.admits n with hadmits | rfl | ⟨rfl, houter⟩
        · exact Reader.outlined_outside h hadmits
        · exact Reader.outlined_bracket h
        · rw [houter]
          exact Reader.outlined_unbalanced h houter

/-- The tokens of a list of fragments. -/
def fragmentTokens (fs : List Fragment) : List Regex.Token := fs.flatMap fun f => tokens f.text

/-- The tokens of a pattern's expression, without its anchors and the guard at its start. -/
def bodyTokens (pattern : List Char) : List Regex.Token := fragmentTokens (fragments pattern)

theorem outlined_fragments {fs : List Fragment} (hfs : ∀ f ∈ fs, f.IsWritten) {r : Reader}
    {o : Outline} (h : r.At o) :
    Outlined ((fs.flatMap Fragment.text).foldlM Reader.step r)
      ((fragmentTokens fs).foldlM Outline.after o) := by
  induction fs generalizing r o with
  | nil => exact .goes h
  | cons f fs ih =>
      rw [List.forall_mem_cons] at hfs
      rw [fragmentTokens, List.flatMap_cons, List.flatMap_cons]
      exact (outlined_fragment hfs.1 h).append fun r' o' _ hr' => ih hfs.2 hr'

theorem isWritten_fragment (b : Braces) {e : Element} (he : e ≠ .plain '\\') :
    (b.fragment e).IsWritten := by
  by_cases hbracket : e = .plain '['
  · subst hbracket
    exact .inl rfl
  have hfree : e.IsBracketFree := by
    rintro c rfl
    exact ⟨fun hc => hbracket (hc ▸ rfl), fun hc => he (hc ▸ rfl)⟩
  have hgives := b.gives_fragment e
  generalize b.fragment e = f at hgives
  cases hgives with
  | kept h => exact isAlphanum_of_keepsBackslash h
  | bare h => exact .inr (isOrdinary_of_keepsBackslash h)
  | special hc h => exact isAlphanum_of_isSpecial h
  | char hc h => exact .inr (isOrdinary_of_isLiteral hfree hc h)
  | _ => trivial

theorem isWritten_fragmentsFrom {es : List Element} (hes : ∀ e ∈ es, e ≠ .plain '\\') (b : Braces) :
    ∀ f ∈ fragmentsFrom b es, f.IsWritten := by
  induction es generalizing b with
  | nil =>
      intro f hf
      rw [List.eq_of_mem_replicate hf]
      trivial
  | cons e es ih =>
      rw [List.forall_mem_cons] at hes
      rw [fragmentsFrom, List.forall_mem_cons]
      exact ⟨isWritten_fragment b hes.1, ih hes.2 _⟩

theorem isWritten_of_mem_fragments {pattern : List Char} {f : Fragment}
    (hf : f ∈ fragments pattern) : f.IsWritten := by
  refine isWritten_fragmentsFrom ?_ .none f hf
  intro e he hb
  exact (mem_unescaped_of_plain (hb ▸ he)).2.1 rfl

/-! ## The end of the text -/

/-- Outside of all sets the anchor at the end is read, and the text may end there unless a group is
    open. -/
theorem finish_outside {r : Reader} {n : Nest} (h : r.Holds n) :
    (∃ e, (['\\', 'Z'].foldlM Reader.step r >>= Reader.finish) = .ok e) ↔ n.outer = [] := by
  obtain ⟨s, -, rfl, hread⟩ := h.exists_foldlM_backslash 'Z'
  rw [hread]
  obtain ⟨position, escaping, mode, frame, outer⟩ := s
  cases outer with
  | nil => exact ⟨fun _ => rfl, fun _ => ⟨_, rfl⟩⟩
  | cons f outer =>
      constructor
      · rintro ⟨e, he⟩
        cases he
      · intro houter
        cases houter

/-- Inside a set the anchor at the end is an escape that means nothing. -/
theorem finish_inside {r : Reader} {s : Regex.SetReader} (hesc : r.escaping = false)
    (hmode : r.mode = .set s) :
    ¬∃ e, (['\\', 'Z'].foldlM Reader.step r >>= Reader.finish) = .ok e := by
  obtain ⟨position, escaping, mode, frame, outer⟩ := r
  obtain ⟨place, negated, items, phase⟩ := s
  cases hesc
  cases hmode
  intro hex
  obtain ⟨e, he⟩ := hex
  cases phase <;> cases he

/-- A reader finishes exactly if it stands outside of all sets and groups. -/
theorem finish_at {r : Reader} {o : Outline} (h : r.At o) :
    (∃ e, (['\\', 'Z'].foldlM Reader.step r >>= Reader.finish) = .ok e) ↔ o = .start := by
  cases h with
  | @outside n h =>
      rw [finish_outside h, ← List.length_eq_zero_iff, Outline.start, Outline.mk.injEq]
      exact (and_iff_right rfl).symm
  | @inside s hesc hmode =>
      refine iff_of_false (finish_inside hesc hmode) ?_
      intro ho
      have hspot : s.phase.spot = .outside := congrArg Outline.spot ho
      rw [← Spot.isInside_eq_false_iff, s.phase.isInside_spot] at hspot
      cases hspot

theorem exists_ofChars_iff (pattern : List Char) :
    (∃ e, Regex.ofChars (regexChars pattern) = .ok e) ↔
      (bodyTokens pattern).foldlM Outline.after .start = some .start := by
  obtain ⟨r, hr, hholds⟩ := takes_anchors pattern Reader.start Nest.holds_start
  have hstart : r.At .start := by
    have h := Reader.At.outside hholds
    rwa [outer_anchored] at h
  have hread : Regex.ofChars (regexChars pattern)
      = ((fragments pattern).flatMap Fragment.text).foldlM Reader.step r >>=
        fun r => ['\\', 'Z'].foldlM Reader.step r >>= Reader.finish := by
    rw [Regex.ofChars, regexChars, List.foldlM_append, List.foldlM_append, hr, bind_assoc]
    rfl
  have hbody := outlined_fragments (fun f (hf : f ∈ fragments pattern) =>
    isWritten_of_mem_fragments hf) hstart
  rw [hread, bodyTokens]
  generalize (fragmentTokens (fragments pattern)).foldlM Outline.after .start = y at hbody
  generalize ((fragments pattern).flatMap Fragment.text).foldlM Reader.step r = x at hbody
  cases hbody with
  | fails fault =>
      refine iff_of_false ?_ ?_
      · intro hex
        obtain ⟨e, he⟩ := hex
        cases he
      · intro hstart
        cases hstart
  | goes h =>
      rw [Option.some.injEq]
      exact finish_at h

theorem exists_ofPattern_iff_ofChars (pattern : String) :
    (∃ m, Matcher.ofPattern pattern = .ok m) ↔
      ∃ e, Regex.ofChars (regexChars pattern.toList) = .ok e := by
  have htext : (regexText pattern).toList = regexChars pattern.toList := String.toList_ofList
  rw [Matcher.ofPattern, Regex.ofText, htext]
  cases Regex.ofChars (regexChars pattern.toList) with
  | error fault =>
      refine iff_of_false ?_ ?_ <;>
      · rintro ⟨_, h⟩
        cases h
  | ok e => exact iff_of_true ⟨_, rfl⟩ ⟨_, rfl⟩

/-- **A pattern compiles exactly if its sets are closed, their ranges ascend and the parentheses
    outside of them pair up.** -/
theorem exists_ofPattern_iff (pattern : String) :
    (∃ m, Matcher.ofPattern pattern = .ok m) ↔
      ((bodyTokens pattern.toList).foldl Spot.after .outside).isInside = false ∧
        (∀ range ∈ ranges .outside (bodyTokens pattern.toList), range.1 ≤ range.2) ∧
        (outsideSets .outside (bodyTokens pattern.toList)).foldlM parenthesis 0 = some 0 := by
  rw [exists_ofPattern_iff_ofChars, exists_ofChars_iff, Outline.foldlM_after_iff,
    Spot.isInside_eq_false_iff]
  rfl

end DirGlob.Pattern
