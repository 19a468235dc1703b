import DirGlob.Proofs.Settings.Modes
import DirGlob.Settings.Merge

set_option autoImplicit false

/-! # Merged settings

Overrides are put in one key after the other, and no key gets in the way of another one. So what
stands under a known key of merged settings is the override if one is given, and otherwise what
stood there before (`get?_mergeEntries`). -/

namespace DirGlob.Settings

/-- The override under a key, if one is given. -/
def override? (overrides : List (String × Value)) (key : String) : Option Value :=
  match Value.get? overrides key with
  | none | some .null => none
  | some v => some v

/-- Putting in what is given for some keys. -/
theorem get?_foldl_put (given : String → Option Value) (ks : List String)
    (base : List (String × Value)) (key : String) :
    Value.get? (ks.foldl (fun entries k => (given k).elim entries (Value.put entries k)) base) key =
      if key ∈ ks then (given key).or (Value.get? base key) else Value.get? base key := by
  induction ks generalizing base with
  | nil => simp
  | cons k ks ih =>
      have hstep : Value.get? ((given k).elim base (Value.put base k)) key =
          if key = k then (given key).or (Value.get? base key) else Value.get? base key := by
        by_cases hkey : key = k
        · subst hkey
          cases given key <;> simp [Value.get?_put_self]
        · cases given k <;> simp [hkey, Value.get?_put_of_ne]
      rw [List.foldl_cons, ih, hstep]
      -- A key that is put in twice gets the same value both times.
      by_cases hkey : key = k <;> by_cases hmem : key ∈ ks <;> cases given key <;> simp [hkey, hmem]

theorem get?_mergeEntries (base overrides : List (String × Value)) {key : String}
    (h : key ∈ keys) : Value.get? (mergeEntries base overrides) key =
      (override? overrides key).or (Value.get? base key) := by
  have hfold : mergeEntries base overrides = keys.foldl
      (fun entries k => (override? overrides k).elim entries (Value.put entries k)) base := by
    rw [mergeEntries]
    congr 1
    funext entries k
    rw [override?]
    split <;> simp_all
  rw [hfold, get?_foldl_put, if_pos h]

end DirGlob.Settings
