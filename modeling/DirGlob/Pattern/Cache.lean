import DirGlob.Pattern.Matcher

set_option autoImplicit false

/-! # The cache of compiled patterns

The compiled patterns that were asked for last are kept, the most recent one first. A pattern
that is asked for again moves to the front, and one too many falls off the end. A pattern that
cannot be compiled counts as a miss and leaves what is kept alone. -/

namespace DirGlob.Pattern

/-- The compiled patterns that are kept, and how often one was and was not found among them. -/
structure Cache where
  entries : List Matcher
  hits : Nat
  misses : Nat
deriving Repr, DecidableEq

namespace Cache

/-- How many compiled patterns are kept at most. -/
def capacity : Nat := 256

/-- A cache that has not been used. -/
def empty : Cache := ⟨[], 0, 0⟩

/-- How many compiled patterns are kept. -/
def size (c : Cache) : Nat := c.entries.length

/-- The compiled form of a pattern, if it is kept. -/
def find? (c : Cache) (pattern : String) : Option Matcher :=
  c.entries.find? (·.glob = pattern)

/-- Compiles a pattern, or takes its compiled form from the cache. -/
def compile (c : Cache) (pattern : String) : Except Regex.Malformed Matcher × Cache :=
  match c.find? pattern with
  | some m =>
    (.ok m, { c with entries := m :: c.entries.filter (·.glob ≠ pattern), hits := c.hits + 1 })
  | none => match Matcher.ofPattern pattern with
    | .ok m =>
      (.ok m, { c with entries := (m :: c.entries).take capacity, misses := c.misses + 1 })
    | .error e => (.error e, { c with misses := c.misses + 1 })

theorem find?_glob {c : Cache} {pattern : String} {m : Matcher} (h : c.find? pattern = some m) :
    m.glob = pattern := by
  simpa using List.find?_some h

/-- The cache never keeps more than it can. -/
theorem size_compile_le {c : Cache} (h : c.size ≤ capacity) (pattern : String) :
    (c.compile pattern).2.size ≤ capacity := by
  rw [compile]
  split
  · next m hm =>
    have hmem : m ∈ c.entries := List.mem_of_find?_eq_some hm
    have hlt : (c.entries.filter (·.glob ≠ pattern)).length < c.entries.length :=
      List.length_filter_lt_length_iff_exists.2 ⟨m, hmem, by simp [find?_glob hm]⟩
    exact Nat.le_trans hlt h
  · split
    · exact List.length_take_le _ _
    · exact h

/-- Every request is a hit or a miss. -/
theorem hits_add_misses_compile (c : Cache) (pattern : String) :
    (c.compile pattern).2.hits + (c.compile pattern).2.misses = c.hits + c.misses + 1 := by
  rw [compile]
  split
  · simp only; omega
  · split <;> (simp only; omega)

end Cache

end DirGlob.Pattern
