import DirGlob.Proofs.Path.Join
import DirGlob.WorkDir.Resolve

set_option autoImplicit false

/-! # What paths are resolved to

A path is resolved if the explicit directory, the path itself and all that follows it are paths
(`resolve_eq_ok_iff`). Against an absolute base resolving is one join from left to right, to which
the path `.` adds nothing (`resolveFrom_eq_joinAll`), and the base is part of that join
(`resolve_eq_joinAll`). What an absolute path is resolved to does not depend on the base: it is the
path itself. -/

namespace DirGlob

/-- What is bound together gives a result if each of its parts does. -/
theorem bind_eq_ok_iff {ε α β : Type} {x : Except ε α} {f : α → Except ε β} {b : β} :
    x >>= f = .ok b ↔ ∃ a, x = .ok a ∧ f a = .ok b := by
  cases x <;> simp [bind, Except.bind]

/-- The path that a value stands for, if one is given. -/
def Path.ofGiven : Value → Except Failure (Option String)
  | .null => .ok none
  | v => (ofValue v).map some

namespace WorkDir

variable {ambient b p r : String} {cwd path : Value}

/-! ## The base -/

theorem base_of_ne_null (ambient : String) (h : cwd ≠ .null) :
    base ambient cwd = (Path.ofValue cwd).map (Path.join ambient) := by
  cases cwd with
  | null => exact absurd rfl h
  | _ => rfl

theorem ne_null_of_ofValue {c : String} (h : Path.ofValue cwd = .ok c) : cwd ≠ .null := by
  rintro rfl
  cases h

theorem base_of_ofValue (ambient : String) {c : String} (h : Path.ofValue cwd = .ok c) :
    base ambient cwd = .ok (Path.join ambient c) := by
  rw [base_of_ne_null ambient (ne_null_of_ofValue h), h]
  rfl

theorem isAbsolute_base (h : Path.isAbsolute ambient = true) (hb : base ambient cwd = .ok b) :
    Path.isAbsolute b = true := by
  by_cases hnull : cwd = .null
  · subst hnull
    cases hb
    exact h
  · rw [base_of_ne_null ambient hnull] at hb
    cases hc : Path.ofValue cwd with
    | error f =>
        rw [hc] at hb
        cases hb
    | ok c =>
        rw [hc] at hb
        cases hb
        exact Path.isAbsolute_join_left h c

/-! ## Resolving -/

/-- A path is resolved exactly if it, what follows it and the explicit directory are paths. -/
theorem resolve_eq_ok_iff {more : List Value} :
    resolve ambient path more cwd = .ok r ↔
      ∃ b p ps, base ambient cwd = .ok b ∧ Path.ofValue path = .ok p ∧
        more.mapM Path.ofValue = .ok ps ∧ r = resolveFrom b p ps := by
  simp only [resolve, bind_eq_ok_iff, pure, Except.pure, Except.ok.injEq]
  constructor
  · rintro ⟨b, hb, p, hp, ps, hps, rfl⟩
    exact ⟨b, p, ps, hb, hp, hps, rfl⟩
  · rintro ⟨b, p, ps, hb, hp, hps, rfl⟩
    exact ⟨b, hb, p, hp, ps, hps, rfl⟩

/-- A path alone is resolved against the working directory. -/
theorem resolve_of_ofValue (ambient : String) (h : Path.ofValue path = .ok p) :
    resolve ambient path [] .null = .ok (resolveFrom ambient p []) :=
  resolve_eq_ok_iff.2 ⟨ambient, p, [], rfl, h, rfl, rfl⟩

theorem resolve_of_ofValue_error (ambient : String) {f : Failure}
    (h : Path.ofValue path = .error f) : resolve ambient path [] .null = .error f := by
  rw [resolve, h]
  rfl

/-- What is resolved in an absolute directory is absolute. -/
theorem isAbsolute_resolve (h : Path.isAbsolute ambient = true) {more : List Value}
    (hr : resolve ambient path more cwd = .ok r) : Path.isAbsolute r = true := by
  obtain ⟨b, p, ps, hb, -, -, rfl⟩ := resolve_eq_ok_iff.1 hr
  exact isAbsolute_resolveFrom (isAbsolute_base h hb) p ps

/-- An absolute path stays as it is. -/
theorem resolveFrom_of_isAbsolute (b : String) (h : Path.isAbsolute p = true) :
    resolveFrom b p [] = p := by
  have hdot : p ≠ "." := by
    rintro rfl
    cases h
  rw [resolveFrom, if_neg hdot, Path.joinAll_nil, if_pos h]

/-- An absolute path stays as it is in every directory, also in an explicit one. -/
theorem resolve_of_isAbsolute (ambient : String) (h : Path.isAbsolute p = true)
    (hp : Path.ofValue path = .ok p) (hcwd : cwd = .null ∨ ∃ c, Path.ofValue cwd = .ok c) :
    resolve ambient path [] cwd = .ok p := by
  obtain ⟨b, hb⟩ : ∃ b, base ambient cwd = .ok b := by
    obtain rfl | ⟨c, hc⟩ := hcwd
    · exact ⟨ambient, rfl⟩
    · exact ⟨_, base_of_ofValue ambient hc⟩
  exact resolve_eq_ok_iff.2 ⟨b, p, [], hb, hp, rfl, (resolveFrom_of_isAbsolute b h).symm⟩

/-- Any path but `.` is joined to the base. -/
theorem resolveFrom_of_ne_dot (b : String) (h : p ≠ ".") : resolveFrom b p [] = Path.join b p := by
  rw [resolveFrom, if_neg h, Path.joinAll_nil]
  split
  · next habs => rw [Path.join_of_isAbsolute b habs]
  · rfl

/-- Against an absolute base, a path and what follows it are joined to the base one after the other;
    the path `.` is left out. -/
theorem resolveFrom_eq_joinAll (h : Path.isAbsolute b = true) (p : String) (ps : List String) :
    resolveFrom b p ps = Path.joinAll b ((if p = "." then [] else [p]) ++ ps) := by
  rw [resolveFrom]
  by_cases hdot : p = "."
  · rw [if_pos hdot, if_pos hdot, List.nil_append, if_pos]
    rw [Path.isAbsolute_joinAll, h, Bool.true_or]
  · rw [if_neg hdot, if_neg hdot, List.singleton_append, Path.joinAll_cons, Path.joinAll_join]
    split
    · next habs => rw [Path.join_of_isAbsolute b habs]
    · rfl

/-- What follows can be joined afterwards. -/
theorem join_resolveFrom (h : Path.isAbsolute b = true) (p q : String) :
    Path.join (resolveFrom b p []) q = resolveFrom b p [q] := by
  rw [resolveFrom_eq_joinAll h, resolveFrom_eq_joinAll h, List.append_nil, Path.joinAll_append]
  rfl

/-! ## One join -/

/-- The base is joined as well. -/
theorem base_eq_joinAll (ambient : String) (cwd : Value) :
    base ambient cwd = (Path.ofGiven cwd).map fun c => Path.joinAll ambient c.toList := by
  by_cases hnull : cwd = .null
  · subst hnull
    rfl
  · rw [base_of_ne_null ambient hnull, Path.ofGiven.eq_2 cwd hnull]
    cases Path.ofValue cwd <;> rfl

/-- An absolute result stands as it is, and joining it to the base would not change it. -/
theorem resolveFrom_eq_join (b p : String) (ps : List String) :
    resolveFrom b p ps = Path.join b (Path.joinAll (if p = "." then b else p) ps) := by
  simp only [resolveFrom]
  generalize Path.joinAll (if p = "." then b else p) ps = joined
  split
  · next habs => rw [Path.join_of_isAbsolute b habs]
  · rfl

/-- **Resolving is one join from left to right**, if all that is given is a path: to the working
    directory are joined the explicit directory, the path unless it is `.`, and what follows it. So
    it makes no difference that an absolute result is not joined to the base. -/
theorem resolve_eq_joinAll (h : Path.isAbsolute ambient = true) (path : Value) (more : List Value)
    (cwd : Value) :
    resolve ambient path more cwd = (do
      let c ← Path.ofGiven cwd
      let p ← Path.ofValue path
      let ps ← more.mapM Path.ofValue
      return Path.joinAll ambient (c.toList ++ (if p = "." then [] else [p]) ++ ps)) ∧
    ∀ b p ps, resolveFrom b p ps = Path.join b (Path.joinAll (if p = "." then b else p) ps) := by
  refine ⟨?_, resolveFrom_eq_join⟩
  rw [resolve, base_eq_joinAll]
  cases Path.ofGiven cwd with
  | error f => rfl
  | ok c =>
      have hbase : Path.isAbsolute (Path.joinAll ambient c.toList) = true := by
        rw [Path.isAbsolute_joinAll, h, Bool.true_or]
      have hjoined (p : String) (ps : List String) :
          resolveFrom (Path.joinAll ambient c.toList) p ps =
            Path.joinAll ambient (c.toList ++ (if p = "." then [] else [p]) ++ ps) := by
        rw [resolveFrom_eq_joinAll hbase, List.append_assoc, ← Path.joinAll_append]
      simp only [Except.map, bind, Except.bind, hjoined]

/-- An empty segment, separators at the ends of others, and an absolute one in the middle. -/
theorem resolve_eq_joinAll_of_mixed :
    Path.isAbsolute "/h" = true ∧
      resolve "/h" (.text ".") [.text "a//", .text "", .text "b"] (.text "x/") = .ok "/h/x/a//b" ∧
      resolve "/h" (.text "a") [.pathLike (.text "/b") ⟨"b", "at b"⟩, .text "c"] .null =
        .ok "/b/c" := by
  have h : Path.isAbsolute "/h" = true := by decide
  have hdot : Path.joinAll "/h" ["x/", "a//", "", "b"] = "/h/x/a//b" := by decide
  have hroot : Path.joinAll "/h" ["a", "/b", "c"] = "/b/c" := by decide
  refine ⟨h, ?_, ?_⟩
  · exact (resolve_eq_joinAll h _ _ _).1.trans (congrArg Except.ok hdot)
  · exact (resolve_eq_joinAll h _ _ _).1.trans (congrArg Except.ok hroot)

/-! ## The path `.` behind the base -/

/-- What is resolved stays the same with `.` behind an absolute base exactly if one of the paths is
    absolute. -/
theorem resolveFrom_join_dot_eq_iff (h : Path.isAbsolute b = true) (p : String) (ps : List String) :
    resolveFrom (Path.join b ".") p ps = resolveFrom b p ps ↔
      (p :: ps).any Path.isAbsolute = true := by
  rw [resolveFrom_eq_joinAll (Path.isAbsolute_join_left h "."), resolveFrom_eq_joinAll h,
    Path.joinAll_join_dot_eq_iff]
  by_cases hdot : p = "."
  · subst hdot
    exact Iff.rfl
  · rw [if_neg hdot]
    exact Iff.rfl

end WorkDir

end DirGlob
