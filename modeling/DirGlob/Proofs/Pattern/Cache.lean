import DirGlob.Pattern.Cache

set_option autoImplicit false

/-! # What the cache of compiled patterns holds

The cache is faithful: what it holds for a pattern is what compiling the pattern gives. An empty
cache is, and compiling keeps it so, whatever is found in it and whatever falls off its end. So
compiling by way of a faithful cache is compiling. -/

namespace DirGlob.Pattern

theorem Matcher.glob_of_ofPattern {pattern : String} {m : Matcher}
    (h : Matcher.ofPattern pattern = .ok m) : m.glob = pattern := by
  rw [ofPattern] at h
  cases hread : Regex.ofText (regexText pattern) with
  | error e =>
      rw [hread] at h
      cases h
  | ok r =>
      rw [hread] at h
      cases h
      rfl

namespace Cache

variable {c : Cache}

/-- The compiled patterns that are kept are what compiling gives. -/
def Faithful (c : Cache) : Prop := ∀ m ∈ c.entries, Matcher.ofPattern m.glob = .ok m

theorem faithful_empty : empty.Faithful := nofun

theorem Faithful.ofPattern_of_find? (h : c.Faithful) {pattern : String} {m : Matcher}
    (hm : c.find? pattern = some m) : Matcher.ofPattern pattern = .ok m := by
  rw [← find?_glob hm]
  exact h m (List.mem_of_find?_eq_some hm)

/-- Compiling by way of the cache is compiling. -/
theorem Faithful.compile_fst (h : c.Faithful) (pattern : String) :
    (c.compile pattern).1 = Matcher.ofPattern pattern := by
  rw [compile]
  split
  · next m hm => exact (h.ofPattern_of_find? hm).symm
  · split
    · next m hm => exact hm.symm
    · next e he => exact he.symm

theorem Faithful.compile (h : c.Faithful) (pattern : String) :
    (c.compile pattern).2.Faithful := by
  rw [Cache.compile]
  split
  · next m hm =>
    intro m' hm'
    rcases List.mem_cons.1 hm' with rfl | hm'
    · exact h m' (List.mem_of_find?_eq_some hm)
    · exact h m' (List.mem_filter.1 hm').1
  · split
    · next m hm =>
      intro m' hm'
      rcases List.mem_cons.1 (List.mem_of_mem_take hm') with rfl | hm'
      · rw [Matcher.glob_of_ofPattern hm, hm]
      · exact h m' hm'
    · exact h

end Cache

end DirGlob.Pattern
