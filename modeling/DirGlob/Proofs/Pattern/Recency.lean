import DirGlob.Proofs.Pattern.Cache

set_option autoImplicit false

/-! # Which patterns are kept

The cache is described by the requests it has answered, and by nothing else. Of all patterns that
were asked for, those that compile are put in the order of their last requests, the latest one
first, and as many of them as there is room for are the ones that are kept (`recent`). That this is
what the cache holds is an invariant of its requests (`Cache.Recalls.compile`): a pattern that is
asked for again moves to the front, whether it is still held or has fallen off the end, and the
latter makes another one fall off. -/

namespace DirGlob.Pattern

/-! ## The first of a list without repetitions -/

section Lists

variable {α : Type} [BEq α] [LawfulBEq α]

theorem nodup_eraseDups : (l : List α) → l.eraseDups.Nodup
  | [] => List.nodup_nil
  | a :: l => by
      rw [List.eraseDups_cons, List.nodup_cons]
      exact ⟨by simp [List.mem_eraseDups], nodup_eraseDups (l.filter fun b => !b == a)⟩
  termination_by l => l.length
  decreasing_by exact Nat.lt_succ_of_le (List.length_filter_le _ _)

theorem eraseDups_filter (p : α → Bool) : (l : List α) →
    (l.filter p).eraseDups = l.eraseDups.filter p
  | [] => rfl
  | a :: l => by
      have hrest : ((l.filter p).filter fun b => !b == a).eraseDups =
          (l.filter fun b => !b == a).eraseDups.filter p := by
        rw [List.filter_filter, ← eraseDups_filter p (l.filter fun b => !b == a),
          List.filter_filter]
        simp only [Bool.and_comm]
      rw [List.eraseDups_cons, List.filter_cons, List.filter_cons]
      by_cases hp : p a = true
      · rw [if_pos hp, if_pos hp, List.eraseDups_cons, hrest]
      · -- what `p` refuses is not there to be erased
        have hself : (l.filter p).filter (fun b => !b == a) = l.filter p := by
          refine List.filter_eq_self.2 fun b hb => ?_
          have hne : b ≠ a := fun h => hp (h ▸ (List.mem_filter.1 hb).2)
          simpa using hne
        rw [if_neg hp, if_neg hp, ← hrest, hself]
  termination_by l => l.length
  decreasing_by exact Nat.lt_succ_of_le (List.length_filter_le _ _)

end Lists

variable {α : Type} [DecidableEq α] {a : α}

/-- What is taken away among the first of a list makes room for one more. -/
theorem filter_take_of_mem {l : List α} (hl : l.Nodup) {n : Nat} (h : a ∈ l.take (n + 1)) :
    (l.take (n + 1)).filter (· ≠ a) = (l.filter (· ≠ a)).take n := by
  induction l generalizing n with
  | nil => simp at h
  | cons b l ih =>
      obtain ⟨hb, hl⟩ := List.nodup_cons.1 hl
      by_cases hab : b = a
      · subst hab
        have hself {l' : List α} (hmem : b ∉ l') : l'.filter (· ≠ b) = l' :=
          List.filter_eq_self.2 fun c hc => by simpa using fun he : c = b => hmem (he ▸ hc)
        simp only [List.take_succ_cons, List.filter_cons, ne_eq, not_true_eq_false, decide_false,
          Bool.false_eq_true, if_false]
        rw [hself hb, hself fun hmem => hb (List.mem_of_mem_take hmem)]
      · rw [List.take_succ_cons, List.mem_cons, or_iff_right (Ne.symm hab)] at h
        cases n with
        | zero => simp at h
        | succ n =>
            rw [List.take_succ_cons, List.filter_cons_of_pos (by simpa using hab),
              List.filter_cons_of_pos (by simpa using hab), List.take_succ_cons, ih hl h]

/-- What is taken away behind the first of a list does not change them. -/
theorem take_filter_of_not_mem {l : List α} {n : Nat} (h : a ∉ l.take n) :
    (l.filter (· ≠ a)).take n = l.take n := by
  induction l generalizing n with
  | nil => rfl
  | cons b l ih =>
      cases n with
      | zero => rfl
      | succ n =>
          rw [List.take_succ_cons, List.mem_cons, not_or] at h
          rw [List.filter_cons_of_pos (by simpa using Ne.symm h.1), List.take_succ_cons,
            List.take_succ_cons, ih h.2]

/-! ## Requests -/

/-- Whether the pattern compiles. -/
def compiles (pattern : String) : Bool := (Matcher.ofPattern pattern).isOk

/-- The patterns among these requests that compile, each once, in the order of their last requests:
    the latest comes first. -/
def byRecency (asked : List String) : List String := (asked.filter compiles).reverse.eraseDups

/-- The patterns that are kept after these requests: as many of the latest as there is room for. -/
def recent (asked : List String) : List String := (byRecency asked).take Cache.capacity

example : recent ["a", "[", "b", "a", "[", "c", "b"] = ["b", "c", "a"] := by decide +kernel

/-- There is room for some pattern. -/
theorem exists_capacity_eq : ∃ n, Cache.capacity = n + 1 := ⟨_, rfl⟩

theorem byRecency_concat_of_compiles {pattern : String} (h : compiles pattern = true)
    (asked : List String) :
    byRecency (asked ++ [pattern]) = pattern :: (byRecency asked).filter (· ≠ pattern) := by
  have hne : (fun p => !p == pattern) = fun p => decide (p ≠ pattern) := by
    funext p
    by_cases hp : p = pattern <;> simp [hp]
  rw [byRecency, List.filter_append, List.filter_cons_of_pos h, List.filter_nil,
    List.reverse_append, List.reverse_singleton, List.singleton_append, List.eraseDups_cons,
    eraseDups_filter, hne, byRecency]

theorem byRecency_concat_of_not_compiles {pattern : String} (h : compiles pattern = false)
    (asked : List String) : byRecency (asked ++ [pattern]) = byRecency asked := by
  rw [byRecency, List.filter_append, List.filter_cons_of_neg (by simp [h]), List.filter_nil,
    List.append_nil, byRecency]

/-- A pattern that is still kept moves to the front. -/
theorem recent_concat_of_mem {pattern : String} {asked : List String} (h : pattern ∈ recent asked) :
    recent (asked ++ [pattern]) = pattern :: (recent asked).filter (· ≠ pattern) := by
  have hcompiles : compiles pattern = true := by
    have hmem := List.mem_eraseDups.1 (List.mem_of_mem_take h)
    exact (List.mem_filter.1 (List.mem_reverse.1 hmem)).2
  obtain ⟨n, hn⟩ := exists_capacity_eq
  rw [recent, hn] at h
  have hnodup : (byRecency asked).Nodup := nodup_eraseDups _
  rw [recent, recent, hn, byRecency_concat_of_compiles hcompiles, List.take_succ_cons,
    filter_take_of_mem hnodup h]

/-- A pattern that is not kept any longer, or was never asked for, takes the place of the last. -/
theorem recent_concat_of_compiles {pattern : String} {asked : List String}
    (h : pattern ∉ recent asked) (hcompiles : compiles pattern = true) :
    recent (asked ++ [pattern]) = (pattern :: recent asked).take Cache.capacity := by
  obtain ⟨n, hn⟩ := exists_capacity_eq
  rw [recent, hn] at h
  have hfirst : pattern ∉ (byRecency asked).take n := fun hmem =>
    h ((List.take_prefix_take_left (Nat.le_succ n)).subset hmem)
  rw [recent, recent, hn, byRecency_concat_of_compiles hcompiles, List.take_succ_cons,
    List.take_succ_cons, take_filter_of_not_mem hfirst, List.take_take,
    Nat.min_eq_left (Nat.le_succ n)]

theorem recent_concat_of_not_compiles {pattern : String} (h : compiles pattern = false)
    (asked : List String) : recent (asked ++ [pattern]) = recent asked := by
  rw [recent, byRecency_concat_of_not_compiles h, recent]

/-! ## The cache -/

namespace Cache

/-- The cache after it has answered these requests. -/
def run (c : Cache) (asked : List String) : Cache := asked.foldl (fun c p => (c.compile p).2) c

theorem run_cons (c : Cache) (p : String) (asked : List String) :
    c.run (p :: asked) = (c.compile p).2.run asked := rfl

variable {c : Cache} {asked : List String}

theorem isSome_find?_iff (c : Cache) (pattern : String) :
    (c.find? pattern).isSome = true ↔ pattern ∈ c.entries.map (·.glob) := by
  simp [find?]

/-- What has to be known of a cache that has answered these requests. -/
structure Recalls (c : Cache) (asked : List String) : Prop where
  faithful : c.Faithful
  globs : c.entries.map (·.glob) = recent asked
  total : c.hits + c.misses = asked.length

theorem recalls_empty : empty.Recalls [] := ⟨faithful_empty, rfl, rfl⟩

theorem Recalls.isSome_find?_iff (h : c.Recalls asked) (pattern : String) :
    (c.find? pattern).isSome = true ↔ pattern ∈ recent asked := by
  rw [Cache.isSome_find?_iff, h.globs]

theorem globs_filter (c : Cache) (pattern : String) :
    (c.entries.filter (·.glob ≠ pattern)).map (·.glob) =
      (c.entries.map (·.glob)).filter (· ≠ pattern) := by
  rw [List.filter_map]
  rfl

/-- One more request is answered as the requests before it have it. -/
theorem Recalls.compile (h : c.Recalls asked) (pattern : String) :
    (c.compile pattern).2.Recalls (asked ++ [pattern]) := by
  have htotal := c.hits_add_misses_compile pattern
  refine ⟨h.faithful.compile pattern, ?_, ?_⟩
  · have hfind := h.isSome_find?_iff pattern
    rw [Cache.compile]
    split
    · next m hm =>
      rw [hm] at hfind
      rw [recent_concat_of_mem (hfind.1 rfl), List.map_cons, globs_filter, h.globs, find?_glob hm]
    · next hnone =>
      have hnot : pattern ∉ recent asked := fun hmem => by simpa [hnone] using hfind.2 hmem
      split
      · next m hm =>
        have hcompiles : compiles pattern = true := by rw [compiles, hm]; rfl
        rw [recent_concat_of_compiles hnot hcompiles, List.map_take, List.map_cons, h.globs,
          Matcher.glob_of_ofPattern hm]
      · next e he =>
        have hcompiles : compiles pattern = false := by rw [compiles, he]; rfl
        rw [recent_concat_of_not_compiles hcompiles]
        exact h.globs
  · rw [htotal, h.total, List.length_append, List.length_singleton]

theorem Recalls.run (h : c.Recalls asked) (asked' : List String) :
    (c.run asked').Recalls (asked ++ asked') := by
  induction asked' generalizing c asked with
  | nil => rwa [List.append_nil]
  | cons p ps ih =>
      rw [← List.singleton_append, ← List.append_assoc]
      exact ih (h.compile p)

/-- Exactly the patterns that are kept are hits. -/
theorem Recalls.hits_compile (h : c.Recalls asked) (pattern : String) :
    (c.compile pattern).2.hits = c.hits + if pattern ∈ recent asked then 1 else 0 := by
  have hfind := h.isSome_find?_iff pattern
  rw [Cache.compile]
  split
  · next m hm =>
    rw [hm] at hfind
    rw [if_pos (hfind.1 rfl)]
  · next hnone =>
    rw [if_neg fun hmem => by simpa [hnone] using hfind.2 hmem]
    split <;> rfl

/-- All other patterns are misses. -/
theorem Recalls.misses_compile (h : c.Recalls asked) (pattern : String) :
    (c.compile pattern).2.misses = c.misses + if pattern ∈ recent asked then 0 else 1 := by
  have hhits := h.hits_compile pattern
  have htotal := c.hits_add_misses_compile pattern
  split at hhits <;> simp only [*, if_true, if_false] <;> omega

/-- A pattern that cannot be compiled is a miss, and nothing else changes. -/
theorem Faithful.compile_snd_of_error (h : c.Faithful) {pattern : String} {e : Regex.Malformed}
    (he : Matcher.ofPattern pattern = .error e) :
    (c.compile pattern).2 = { c with misses := c.misses + 1 } := by
  rw [Cache.compile]
  split
  · next m hm =>
    rw [h.ofPattern_of_find? hm] at he
    cases he
  · rw [he]

end Cache

end DirGlob.Pattern
