import DirGlob.Proofs.Pattern.Escape
import DirGlob.Proofs.Pattern.Fragments

set_option autoImplicit false

/-! # Stray braces

A closing brace that closes no group is *stray*: it stands for itself, just as it does behind a
backslash. But it also takes one from the depth, so that commas behind it may lose their meaning: in
`}{a,b}` the comma stands in a group, and yet the depth there is zero. Such a comma is *captive*.

Putting a backslash before every stray brace gives the same regular expression exactly if no comma
is captive (`regexChars_escapeStrays_eq_iff`). -/

namespace DirGlob.Pattern

/-! ## Escaping stray braces -/

/-- The text with a backslash before each closing brace that closes no group, if it begins with this
    many groups open. -/
def escapeStrays : Nat → List Char → List Char
  | _, [] => []
  | _, '\\' :: [] => ['\\']
  | n, '\\' :: c :: cs => '\\' :: c :: escapeStrays n cs
  | n, '{' :: cs => '{' :: escapeStrays (n + 1) cs
  | 0, '}' :: cs => '\\' :: '}' :: escapeStrays 0 cs
  | n + 1, '}' :: cs => '}' :: escapeStrays n cs
  | n, c :: cs => c :: escapeStrays n cs

/-- The pattern with a backslash before each stray brace. -/
def withStraysEscaped (pattern : String) : String :=
  String.ofList (escapeStrays 0 pattern.toList)

theorem escapeStrays_cons {c : Char} (hescape : c ≠ '\\') (hopen : c ≠ '{') (hclose : c ≠ '}')
    (n : Nat) (cs : List Char) : escapeStrays n (c :: cs) = c :: escapeStrays n cs := by
  rw [escapeStrays.eq_def]
  split <;> simp_all

theorem head?_escapeStrays (n : Nat) (p : List Char) :
    (escapeStrays n p).head? = some '.' ↔ p.head? = some '.' := by
  rw [escapeStrays.eq_def]
  split <;> simp

namespace Braces

/-- The element that takes the place of an element behind these braces: a stray brace is escaped. -/
def settle (b : Braces) (e : Element) : Element :=
  if e = .plain '}' ∧ b.openGroups = 0 then .escaped '}' else e

/-- The braces without the stray ones. -/
def settled (b : Braces) : Braces := ⟨b.openGroups, b.openGroups⟩

/-- Behind these braces the element is a comma that stands in a group and divides no
    alternatives. -/
def IsCaptive (b : Braces) (e : Element) : Prop :=
  e = .plain ',' ∧ b.depth ≤ 0 ∧ 0 < b.openGroups

instance (b : Braces) (e : Element) : Decidable (b.IsCaptive e) :=
  inferInstanceAs (Decidable (_ ∧ _ ∧ _))

theorem settle_of_ne {b : Braces} {e : Element} (h : e ≠ .plain '}') : b.settle e = e :=
  if_neg fun hstray => h hstray.1

theorem after_of_ne {b : Braces} {e : Element} (hopen : e ≠ .plain '{') (hclose : e ≠ .plain '}') :
    b.after e = b := by
  rw [after.eq_def]
  split <;> simp_all

/-- Without the stray braces, the braces go on without them. -/
theorem settled_after (b : Braces) (e : Element) :
    (b.after e).settled = b.settled.after (b.settle e) := by
  by_cases hclose : e = .plain '}'
  · subst hclose
    by_cases hstray : b.openGroups = 0
    · rw [settle, if_pos ⟨rfl, hstray⟩]
      simp [settled, after, hstray]
    · rw [settle, if_neg fun h => hstray h.2]
      simp only [settled, after, Braces.mk.injEq, and_true]
      omega
  · rw [settle_of_ne hclose]
    by_cases hopen : e = .plain '{'
    · subst hopen
      rfl
    · rw [after_of_ne hopen hclose, after_of_ne hopen hclose]

theorem depth_le_after {b : Braces} (h : b.depth ≤ b.openGroups) (e : Element) :
    (b.after e).depth ≤ (b.after e).openGroups := by
  rw [after.eq_def]
  split
  · show b.depth + 1 ≤ ((b.openGroups + 1 : Nat) : Int)
    omega
  · show b.depth - 1 ≤ ((b.openGroups - 1 : Nat) : Int)
    omega
  · exact h

theorem fragment_congr {b b' : Braces} {e : Element}
    (hclose : e = .plain '}' → (b.openGroups > 0 ↔ b'.openGroups > 0))
    (hcomma : e = .plain ',' → (b.depth > 0 ↔ b'.depth > 0)) : b.fragment e = b'.fragment e := by
  unfold fragment
  split
  · rfl
  · rfl
  · rfl
  · rfl
  · rfl
  · simp only [hclose rfl]
  · next c _ _ _ _ =>
    by_cases hc : c = ','
    · subst hc
      simp only [hcomma rfl]
    · simp [hc]

/-- A stray brace gives the same text behind a backslash. -/
theorem text_fragment_of_stray {b : Braces} (h : b.openGroups = 0) :
    (b.settled.fragment (b.settle (.plain '}'))).text = (b.fragment (.plain '}')).text := by
  have hfragment : b.fragment (.plain '}') = .strayClose := if_neg (by simp [h])
  rw [settle, if_pos ⟨rfl, h⟩, hfragment]
  rfl

/-- A captive comma gives another text once the stray braces are escaped, of the same length. -/
theorem text_fragment_of_captive {b : Braces} {e : Element} (h : b.IsCaptive e) :
    (b.fragment e).text = [','] ∧ (b.settled.fragment (b.settle e)).text = ['|'] := by
  obtain ⟨rfl, hdepth, hgroups⟩ := h
  have hbar : b.settled.fragment (.plain ',') = .bar :=
    (fragment_eq_bar_iff _ _).2 ⟨rfl, Int.natCast_pos.2 hgroups⟩
  have hchar : b.fragment (.plain ',') = .char ',' := by
    show (if ',' = ',' ∧ b.depth > 0 then Fragment.bar else _) = _
    rw [if_neg fun h => Int.not_lt.2 hdepth h.2]
    rfl
  rw [settle_of_ne (by simp), hbar, hchar]
  exact ⟨rfl, rfl⟩

/-- Escaping stray braces changes the texts of captive commas and of nothing else. -/
theorem text_fragment_settle {b : Braces} (hle : b.depth ≤ b.openGroups) {e : Element}
    (h : ¬b.IsCaptive e) : (b.settled.fragment (b.settle e)).text = (b.fragment e).text := by
  by_cases hstray : e = .plain '}' ∧ b.openGroups = 0
  · obtain ⟨rfl, hnone⟩ := hstray
    exact text_fragment_of_stray hnone
  rw [settle, if_neg hstray]
  refine congrArg Fragment.text (fragment_congr (fun _ => Iff.rfl) fun hcomma => ?_)
  have hiff : b.depth > 0 ↔ b.openGroups > 0 := by
    constructor
    · omega
    · exact fun hgroups => Int.not_le.1 fun hdepth => h ⟨hcomma, hdepth, hgroups⟩
  rw [hiff]
  exact Int.natCast_pos

end Braces

/-! ## Elements -/

/-- The elements behind these braces with the stray braces escaped. -/
def settleAll (b : Braces) : List Element → List Element
  | [] => []
  | e :: es => b.settle e :: settleAll (b.after e) es

/-- The captive commas behind these braces. -/
def captiveCommas (b : Braces) : List Element → Nat
  | [] => 0
  | e :: es => (if b.IsCaptive e then 1 else 0) + captiveCommas (b.after e) es

theorem elements_escapeStrays (b : Braces) (p : List Char) :
    elements (escapeStrays b.openGroups p) = settleAll b (elements p) := by
  induction p using escapeInduction generalizing b with
  | nil => rfl
  | lone => rfl
  | escape c cs ih =>
      have hafter : b.after (.escaped c) = b := rfl
      have hsettle : b.settle (.escaped c) = .escaped c := Braces.settle_of_ne (by simp)
      rw [escapeStrays, elements, elements, settleAll, hafter, hsettle, ih]
  | cons c cs hc ih =>
      by_cases hopen : c = '{'
      · subst hopen
        rw [escapeStrays, elements_cons (by decide), elements_cons (by decide)]
        exact congrArg (Element.plain '{' :: ·) (ih (b.after (.plain '{')))
      by_cases hclose : c = '}'
      · subst hclose
        have hplain : elements ('}' :: cs) = .plain '}' :: elements cs := elements_cons (by decide) cs
        rw [hplain, settleAll, ← ih]
        cases hgroups : b.openGroups with
        | zero =>
            have hafter : (b.after (.plain '}')).openGroups = 0 := by simp [Braces.after, hgroups]
            rw [Braces.settle, if_pos ⟨rfl, hgroups⟩, hafter]
            rfl
        | succ n =>
            have hafter : (b.after (.plain '}')).openGroups = n := by simp [Braces.after, hgroups]
            rw [Braces.settle, if_neg (by simp [hgroups]), hafter, escapeStrays,
              elements_cons (by decide)]
            rfl
      · have hhead : ((escapeStrays b.openGroups cs).head? = some '.') = (cs.head? = some '.') :=
          propext (head?_escapeStrays _ _)
        rw [escapeStrays_cons hc hopen hclose, elements_cons hc, elements_cons hc, settleAll]
        simp only [hhead]
        -- neither a separator nor any other character is a brace
        generalize he : (if c = '/' then Element.separator (cs.head? = some '.')
          else .plain c) = e
        have hne {d : Char} (hd : c ≠ d) : e ≠ .plain d := by
          rw [← he]
          split <;> simp [hd]
        rw [Braces.settle_of_ne (hne hclose), Braces.after_of_ne (hne hopen) (hne hclose), ih]

theorem mem_marks_settleAll {c : Char} (hc : c ≠ '\\') {b : Braces} {es : List Element}
    (h : c ∈ (settleAll b es).map Element.mark) : c ∈ es.map Element.mark := by
  induction es generalizing b with
  | nil => exact h
  | cons e es ih =>
      rw [settleAll, List.map_cons, List.mem_cons] at h
      rw [List.map_cons, List.mem_cons]
      refine h.imp (fun hmark => ?_) ih
      rw [Braces.settle] at hmark
      split at hmark
      · exact absurd hmark hc
      · exact hmark

/-- Escaping the stray braces adds no unescaped character but backslashes. -/
theorem mem_unescaped_of_escapeStrays {c : Char} (hc : c ≠ '\\') {p : List Char}
    (h : c ∈ unescaped (escapeStrays 0 p)) : c ∈ unescaped p := by
  have helements : elements (escapeStrays 0 p) = settleAll .none (elements p) :=
    elements_escapeStrays .none p
  rw [← map_mark_elements, helements] at h
  rw [← map_mark_elements]
  exact mem_marks_settleAll hc h

/-! ## The same expression -/

theorem flatMap_text_settleAll_iff {b : Braces} (hle : b.depth ≤ b.openGroups) (es : List Element) :
    (fragmentsFrom b.settled (settleAll b es)).flatMap Fragment.text =
      (fragmentsFrom b es).flatMap Fragment.text ↔ captiveCommas b es = 0 := by
  induction es generalizing b with
  | nil => exact ⟨fun _ => rfl, fun _ => rfl⟩
  | cons e es ih =>
      rw [settleAll, fragmentsFrom, fragmentsFrom, captiveCommas, List.flatMap_cons,
        List.flatMap_cons, ← b.settled_after]
      by_cases hcaptive : b.IsCaptive e
      · obtain ⟨htext, htext'⟩ := Braces.text_fragment_of_captive hcaptive
        rw [htext, htext', if_pos hcaptive]
        simp
      · rw [Braces.text_fragment_settle hle hcaptive, if_neg hcaptive, Nat.zero_add,
          List.append_cancel_left_eq]
        exact ih (Braces.depth_le_after hle e)

/-- **Escaping the stray braces of a pattern gives the same regular expression exactly if none of its
    commas is captive.** -/
theorem regexChars_escapeStrays_eq_iff (p : List Char) :
    regexChars (escapeStrays 0 p) = regexChars p ↔ captiveCommas .none (elements p) = 0 := by
  have hle : Braces.none.depth ≤ Braces.none.openGroups := Int.le_refl 0
  have helements := elements_escapeStrays .none p
  rw [← flatMap_text_settleAll_iff hle, ← helements, regexChars, regexChars]
  simp only [head?_escapeStrays, List.append_cancel_left_eq, List.append_cancel_right_eq]
  rfl

end DirGlob.Pattern
