import DirGlob.Regex.Basic

set_option autoImplicit false

/-! # Matching a name

An expression is matched by moving marks over the positions of a name. A marking is a list of
truth values, one for each position from the start of the name to its end; an expression turns the
marking of the positions it may start from into the marking of those it may get to. Each node of
the expression costs one walk over the name, whatever the name and however many runs there are.

`Regex.matchesChars_iff` says that the marks agree with `Regex.Reads`: a name matches exactly if
the expression can read a part of it from its start. -/

namespace DirGlob.Regex

/-! ## Markings -/

/-- The position with `t` still to be read is marked. -/
def Marked : List Char → List Bool → List Char → Prop
  | c :: cs, m :: ms, t => (m = true ∧ t = c :: cs) ∨ Marked cs ms t
  | [], m :: _, t => m = true ∧ t = []
  | _, [], _ => False

/-- Moves every mark over one character of the class; `carry` marks the first position. -/
def stepMarks (p : Char → Bool) : Bool → List Char → List Bool → List Bool
  | carry, c :: cs, m :: ms => carry :: stepMarks p (m && p c) cs ms
  | carry, [], _ :: _ => [carry]
  | _, _, [] => []

/-- Spreads every mark over the characters of the class that follow it. -/
def runMarks (p : Char → Bool) : Bool → List Char → List Bool → List Bool
  | carry, c :: cs, m :: ms => (m || carry) :: runMarks p ((m || carry) && p c) cs ms
  | carry, [], m :: _ => [m || carry]
  | _, _, [] => []

/-- Keeps the mark of the first position. -/
def startMarks : List Bool → List Bool
  | [] => []
  | m :: ms => m :: ms.map fun _ => false

/-- Keeps the mark of the last position. -/
def finishMarks : List Char → List Bool → List Bool
  | _ :: cs, _ :: ms => false :: finishMarks cs ms
  | [], m :: _ => [m]
  | _, [] => []

/-- Keeps the marks of the positions that no dot follows. -/
def notDotMarks : List Char → List Bool → List Bool
  | c :: cs, m :: ms => (m && c ≠ '.') :: notDotMarks cs ms
  | [], m :: _ => [m]
  | _, [] => []

/-- The marking of the positions that the expression gets to from the marked ones. -/
def advance (name : List Char) : Regex → List Bool → List Bool
  | empty, ms => ms
  | char c, ms => stepMarks (· = c) false name ms
  | set s, ms => stepMarks s.holds false name ms
  | run s, ms => runMarks s.holds false name ms
  | start, ms => startMarks ms
  | finish, ms => finishMarks name ms
  | notDot, ms => notDotMarks name ms
  | seq a b, ms => advance name b (advance name a ms)
  | alt a b, ms => List.zipWith (· || ·) (advance name a ms) (advance name b ms)
  | group a, ms => advance name a ms

/-- Whether the expression can read a part of the name from its start. -/
def matchesChars (r : Regex) (name : List Char) : Bool :=
  (r.advance name (true :: name.map fun _ => false)).any id

/-- Whether the name matches. -/
def matches? (r : Regex) (name : String) : Bool := r.matchesChars name.toList

/-! ## The marks agree with the meaning -/

theorem length_stepMarks (p : Char → Bool) (carry : Bool) (cs : List Char) (ms : List Bool)
    (h : ms.length = cs.length + 1) : (stepMarks p carry cs ms).length = cs.length + 1 := by
  induction cs generalizing carry ms with
  | nil => cases ms <;> simp_all [stepMarks]
  | cons c cs ih =>
    match ms, h with
    | m :: ms, h => simp only [stepMarks, List.length_cons, ih _ ms (by simpa using h)]

theorem length_runMarks (p : Char → Bool) (carry : Bool) (cs : List Char) (ms : List Bool)
    (h : ms.length = cs.length + 1) : (runMarks p carry cs ms).length = cs.length + 1 := by
  induction cs generalizing carry ms with
  | nil => cases ms <;> simp_all [runMarks]
  | cons c cs ih =>
    match ms, h with
    | m :: ms, h => simp only [runMarks, List.length_cons, ih _ ms (by simpa using h)]

theorem length_startMarks (ms : List Bool) : (startMarks ms).length = ms.length := by
  cases ms <;> simp [startMarks]

theorem length_finishMarks (cs : List Char) (ms : List Bool) (h : ms.length = cs.length + 1) :
    (finishMarks cs ms).length = cs.length + 1 := by
  induction cs generalizing ms with
  | nil => cases ms <;> simp_all [finishMarks]
  | cons c cs ih => cases ms <;> simp_all [finishMarks]

theorem length_notDotMarks (cs : List Char) (ms : List Bool) (h : ms.length = cs.length + 1) :
    (notDotMarks cs ms).length = cs.length + 1 := by
  induction cs generalizing ms with
  | nil => cases ms <;> simp_all [notDotMarks]
  | cons c cs ih => cases ms <;> simp_all [notDotMarks]

theorem length_advance (name : List Char) (r : Regex) (ms : List Bool)
    (h : ms.length = name.length + 1) : (r.advance name ms).length = name.length + 1 := by
  induction r generalizing ms with
  | empty => exact h
  | char c => exact length_stepMarks _ _ _ _ h
  | set s => exact length_stepMarks _ _ _ _ h
  | run s => exact length_runMarks _ _ _ _ h
  | start => rw [advance, length_startMarks, h]
  | finish => exact length_finishMarks _ _ h
  | notDot => exact length_notDotMarks _ _ h
  | seq a b iha ihb => exact ihb _ (iha _ h)
  | alt a b iha ihb => simp [advance, iha _ h, ihb _ h]
  | group a ih => exact ih _ h

theorem marked_stepMarks (p : Char → Bool) (carry : Bool) (cs : List Char) (ms : List Bool)
    (t : List Char) (h : ms.length = cs.length + 1) :
    Marked cs (stepMarks p carry cs ms) t ↔
      (carry = true ∧ t = cs) ∨ ∃ s, Marked cs ms s ∧ ∃ c, p c = true ∧ s = c :: t := by
  induction cs generalizing carry ms with
  | nil =>
    match ms, h with
    | [m], _ => simp [stepMarks, Marked]
  | cons c cs ih =>
    match ms, h with
    | m :: ms, h =>
      simp only [List.length_cons, Nat.add_right_cancel_iff] at h
      simp only [stepMarks, Marked, ih _ _ h, Bool.and_eq_true]
      constructor
      · rintro (h | ⟨⟨hm, hp⟩, rfl⟩ | ⟨s, hs, hc⟩)
        · exact .inl h
        · exact .inr ⟨_, .inl ⟨hm, rfl⟩, c, hp, rfl⟩
        · exact .inr ⟨s, .inr hs, hc⟩
      · rintro (h | ⟨s, ⟨hm, rfl⟩ | hs, d, hp, he⟩)
        · exact .inl h
        · obtain ⟨rfl, rfl⟩ := List.cons.inj he
          exact .inr (.inl ⟨⟨hm, hp⟩, rfl⟩)
        · exact .inr (.inr ⟨s, hs, d, hp, he⟩)

theorem marked_runMarks (p : Char → Bool) (carry : Bool) (cs : List Char) (ms : List Bool)
    (t : List Char) (h : ms.length = cs.length + 1) :
    Marked cs (runMarks p carry cs ms) t ↔
      ∃ s, ((carry = true ∧ s = cs) ∨ Marked cs ms s) ∧
        ∃ w, (∀ c ∈ w, p c = true) ∧ s = w ++ t := by
  induction cs generalizing carry ms with
  | nil =>
    match ms, h with
    | [m], _ =>
      simp only [runMarks, Marked, Bool.or_eq_true]
      constructor
      · rintro ⟨hm | hc, rfl⟩
        · exact ⟨[], .inr ⟨hm, rfl⟩, [], by simp, rfl⟩
        · exact ⟨[], .inl ⟨hc, rfl⟩, [], by simp, rfl⟩
      · rintro ⟨s, ⟨hc, rfl⟩ | ⟨hm, rfl⟩, w, -, he⟩
        · exact ⟨.inr hc, (List.append_eq_nil_iff.1 he.symm).2⟩
        · exact ⟨.inl hm, (List.append_eq_nil_iff.1 he.symm).2⟩
  | cons c cs ih =>
    match ms, h with
    | m :: ms, h =>
      simp only [List.length_cons, Nat.add_right_cancel_iff] at h
      simp only [runMarks, Marked, ih _ _ h, Bool.and_eq_true, Bool.or_eq_true]
      constructor
      · rintro (⟨hm, rfl⟩ | ⟨s, ⟨⟨hm, hp⟩, rfl⟩ | hs, w, hw, rfl⟩)
        · exact ⟨c :: cs, hm.elim (fun h => .inr (.inl ⟨h, rfl⟩)) fun h => .inl ⟨h, rfl⟩, [],
            by simp, rfl⟩
        · refine ⟨c :: (w ++ t), hm.elim (fun h => .inr (.inl ⟨h, rfl⟩)) fun h => .inl ⟨h, rfl⟩,
            c :: w, ?_, rfl⟩
          simpa using ⟨hp, hw⟩
        · exact ⟨_, .inr (.inr hs), w, hw, rfl⟩
      · rintro ⟨s, hs, w, hw, rfl⟩
        have key : ∀ hm : m = true ∨ carry = true, w ++ t = c :: cs →
            ((m = true ∨ carry = true) ∧ t = c :: cs) ∨
              ∃ s, (((m = true ∨ carry = true) ∧ p c = true) ∧ s = cs ∨ Marked cs ms s) ∧
                ∃ w, (∀ c ∈ w, p c = true) ∧ s = w ++ t := by
          intro hm he
          cases w with
          | nil => exact .inl ⟨hm, he⟩
          | cons d w =>
            obtain ⟨rfl, rfl⟩ := List.cons.inj he
            simp only [List.mem_cons, forall_eq_or_imp] at hw
            exact .inr ⟨_, .inl ⟨⟨hm, hw.1⟩, rfl⟩, w, hw.2, rfl⟩
        rcases hs with ⟨hc, he⟩ | ⟨hm, he⟩ | hs
        · exact key (.inr hc) he
        · exact key (.inl hm) he
        · exact .inr ⟨_, .inr hs, w, hw, rfl⟩

theorem not_marked_map_false (cs : List Char) (ms : List Bool) (t : List Char) :
    ¬Marked cs (ms.map fun _ => false) t := by
  induction cs generalizing ms with
  | nil => cases ms <;> simp [Marked]
  | cons c cs ih =>
    cases ms with
    | nil => simp [Marked]
    | cons m ms =>
      intro h
      simp only [List.map_cons, Marked, Bool.false_eq_true, false_and, false_or] at h
      exact ih ms h

theorem length_le_of_marked {cs : List Char} {ms : List Bool} {t : List Char}
    (h : Marked cs ms t) : t.length ≤ cs.length := by
  induction cs generalizing ms with
  | nil => cases ms <;> simp_all [Marked]
  | cons c cs ih =>
    cases ms with
    | nil => simp [Marked] at h
    | cons m ms =>
      rcases h with ⟨-, rfl⟩ | h
      · simp
      · have := ih h
        simp only [List.length_cons]
        omega

theorem marked_startMarks (cs : List Char) (ms : List Bool) (t : List Char)
    (h : ms.length = cs.length + 1) :
    Marked cs (startMarks ms) t ↔ Marked cs ms t ∧ t = cs := by
  match cs, ms, h with
  | [], [m], _ => simp [startMarks, Marked]
  | c :: cs, m :: ms, _ =>
    simp only [startMarks, Marked, not_marked_map_false, or_false]
    constructor
    · rintro ⟨hm, rfl⟩
      exact ⟨.inl ⟨hm, rfl⟩, rfl⟩
    · rintro ⟨⟨hm, -⟩ | hs, rfl⟩
      · exact ⟨hm, rfl⟩
      · exact absurd (length_le_of_marked hs) (by simp)

theorem marked_finishMarks (cs : List Char) (ms : List Bool) (t : List Char)
    (h : ms.length = cs.length + 1) :
    Marked cs (finishMarks cs ms) t ↔ Marked cs ms t ∧ t = [] := by
  induction cs generalizing ms with
  | nil =>
    match ms, h with
    | [m], _ => simp [finishMarks, Marked]
  | cons c cs ih =>
    match ms, h with
    | m :: ms, h =>
      simp only [List.length_cons, Nat.add_right_cancel_iff] at h
      simp only [finishMarks, Marked, ih _ h, Bool.false_eq_true, false_and, false_or]
      constructor
      · rintro ⟨hs, rfl⟩
        exact ⟨.inr hs, rfl⟩
      · rintro ⟨⟨-, rfl⟩ | hs, ht⟩
        · simp at ht
        · exact ⟨hs, ht⟩

theorem marked_notDotMarks (cs : List Char) (ms : List Bool) (t : List Char)
    (h : ms.length = cs.length + 1) :
    Marked cs (notDotMarks cs ms) t ↔ Marked cs ms t ∧ t.head? ≠ some '.' := by
  induction cs generalizing ms with
  | nil =>
    match ms, h with
    | [m], _ =>
      simp only [notDotMarks, Marked]
      constructor
      · rintro ⟨hm, rfl⟩
        exact ⟨⟨hm, rfl⟩, by simp⟩
      · exact fun h => h.1
  | cons c cs ih =>
    match ms, h with
    | m :: ms, h =>
      simp only [List.length_cons, Nat.add_right_cancel_iff] at h
      simp only [notDotMarks, Marked, ih _ h, Bool.and_eq_true, decide_eq_true_eq]
      constructor
      · rintro (⟨⟨hm, hc⟩, rfl⟩ | ⟨hs, hd⟩)
        · exact ⟨.inl ⟨hm, rfl⟩, by simpa using hc⟩
        · exact ⟨.inr hs, hd⟩
      · rintro ⟨⟨hm, rfl⟩ | hs, hd⟩
        · exact .inl ⟨⟨hm, by simpa using hd⟩, rfl⟩
        · exact .inr ⟨hs, hd⟩

theorem marked_zipWith_or (cs : List Char) (ms ns : List Bool) (t : List Char)
    (hm : ms.length = cs.length + 1) (hn : ns.length = cs.length + 1) :
    Marked cs (List.zipWith (· || ·) ms ns) t ↔ Marked cs ms t ∨ Marked cs ns t := by
  induction cs generalizing ms ns with
  | nil =>
    match ms, ns, hm, hn with
    | [m], [n], _, _ => simp [Marked, or_and_right]
  | cons c cs ih =>
    match ms, ns, hm, hn with
    | m :: ms, n :: ns, hm, hn =>
      simp only [List.length_cons, Nat.add_right_cancel_iff] at hm hn
      simp only [List.zipWith_cons_cons, Marked, ih _ _ hm hn, Bool.or_eq_true, or_and_right]
      constructor
      · rintro ((h | h) | h | h)
        · exact .inl (.inl h)
        · exact .inr (.inl h)
        · exact .inl (.inr h)
        · exact .inr (.inr h)
      · rintro ((h | h) | h | h)
        · exact .inl (.inl h)
        · exact .inr (.inl h)
        · exact .inl (.inr h)
        · exact .inr (.inr h)

/-- The expression gets to a position exactly if it can read on to it from a marked one. -/
theorem marked_advance (name : List Char) (r : Regex) (ms : List Bool) (t : List Char)
    (h : ms.length = name.length + 1) :
    Marked name (r.advance name ms) t ↔ ∃ s, Marked name ms s ∧ r.Reads name s t := by
  induction r generalizing ms t with
  | empty => simp [advance, Reads]
  | char c => simp [advance, Reads, marked_stepMarks _ _ _ _ _ h]
  | set s => simp [advance, Reads, marked_stepMarks _ _ _ _ _ h]
  | run s => simp [advance, Reads, marked_runMarks _ _ _ _ _ h]
  | start =>
    rw [advance, marked_startMarks _ _ _ h]
    constructor
    · exact fun ⟨hs, he⟩ => ⟨t, hs, he, rfl⟩
    · rintro ⟨s, hs, he, rfl⟩
      exact ⟨hs, he⟩
  | finish =>
    rw [advance, marked_finishMarks _ _ _ h]
    constructor
    · exact fun ⟨hs, he⟩ => ⟨t, hs, he, rfl⟩
    · rintro ⟨s, hs, he, rfl⟩
      exact ⟨hs, he⟩
  | notDot =>
    rw [advance, marked_notDotMarks _ _ _ h]
    constructor
    · exact fun ⟨hs, he⟩ => ⟨t, hs, he, rfl⟩
    · rintro ⟨s, hs, he, rfl⟩
      exact ⟨hs, he⟩
  | seq a b iha ihb =>
    simp only [advance, Reads, ihb _ _ (length_advance _ _ _ h), iha _ _ h]
    constructor
    · rintro ⟨u, ⟨s, hs, ha⟩, hb⟩
      exact ⟨s, hs, u, ha, hb⟩
    · rintro ⟨s, hs, u, ha, hb⟩
      exact ⟨u, ⟨s, hs, ha⟩, hb⟩
  | alt a b iha ihb =>
    rw [advance, marked_zipWith_or _ _ _ _ (length_advance _ _ _ h) (length_advance _ _ _ h),
      iha _ _ h, ihb _ _ h]
    simp only [Reads, and_or_left, exists_or]
  | group a ih => exact ih _ _ h

theorem any_id_iff_marked (cs : List Char) (ms : List Bool) (h : ms.length = cs.length + 1) :
    ms.any id = true ↔ ∃ t, Marked cs ms t := by
  induction cs generalizing ms with
  | nil =>
    match ms, h with
    | [m], _ => simp [Marked]
  | cons c cs ih =>
    match ms, h with
    | m :: ms, h =>
      simp only [List.length_cons, Nat.add_right_cancel_iff] at h
      simp [Marked, ih _ h, exists_or]

/-- A name matches exactly if the expression can read a part of it from its start. -/
theorem matchesChars_iff (r : Regex) (name : List Char) :
    r.matchesChars name = true ↔ ∃ t, r.Reads name name t := by
  have hlen : (true :: name.map fun _ => false).length = name.length + 1 := by simp
  have hmark : ∀ s, Marked name (true :: name.map fun _ => false) s ↔ s = name := by
    intro s
    cases name with
    | nil => simp [Marked]
    | cons c cs =>
      have := not_marked_map_false cs (false :: cs.map fun _ => false) s
      simp only [List.map_cons, List.map_map] at this
      simpa [Marked] using fun h => absurd h (by simpa using this)
  rw [matchesChars, any_id_iff_marked name _ (length_advance _ _ _ hlen)]
  simp only [marked_advance _ _ _ _ hlen, hmark, exists_eq_left]

end DirGlob.Regex
