import DirGlob.Glob
import DirGlob.Proofs.Tree.Listing
import DirGlob.Proofs.WorkDir.Resolve
import DirGlob.Proofs.World.Result

set_option autoImplicit false

/-! # What a search finds

A search compiles its pattern by way of the cache and makes records. What it finds, or why it fails,
depends on neither of these effects: it can be read off the working directory, the cache and the
tree that it starts with (`result_globIn`, `result_glob`). -/

namespace DirGlob

/-- What a compiled pattern finds in a directory: the paths of the entries whose names it matches,
    in listing order. -/
def Tree.find (t : Tree) (directory : String) (matcher : Pattern.Matcher) :
    Except Failure (List String) := do
  let entries ← t.list directory
  return (entries.filter fun e => matcher.matches? e.name).map Tree.Entry.path

/-- What a search in a directory comes to: what its pattern finds there once it is compiled, or the
    failure of the first stage that fails. -/
def World.search (w : World) (root pattern cwd : Value) : Except Failure (List String) := do
  let directory ← WorkDir.resolve w.cwd root [] cwd
  let leaf ← Path.ofValue pattern
  let matcher ← (w.cache.compile leaf).1.mapError .badPattern
  w.tree.find directory matcher

theorem mapError_eq_ok_iff {ε ε' α : Type} {x : Except ε α} {f : ε → ε'} {a : α} :
    x.mapError f = .ok a ↔ x = .ok a := by
  cases x <;> simp [Except.mapError]

/-- What is found is the directory joined to each of the listed names that match. -/
theorem Tree.find_eq_ok_iff {t : Tree} {directory : String} {matcher : Pattern.Matcher}
    {found : List String} :
    t.find directory matcher = .ok found ↔ ∃ listed, t.list directory = .ok listed ∧
      found = ((listed.map Tree.Entry.name).filter matcher.matches?).map (Path.join directory) := by
  have hpaths {listed : List Tree.Entry} (hlist : t.list directory = .ok listed) :
      (listed.filter fun e => matcher.matches? e.name).map Tree.Entry.path =
        ((listed.map Tree.Entry.name).filter matcher.matches?).map (Path.join directory) := by
    rw [List.filter_map, List.map_map]
    exact List.map_congr_left fun e he => Tree.path_of_mem_list hlist (List.mem_filter.1 he).1
  simp only [find, bind_eq_ok_iff, pure, Except.pure, Except.ok.injEq]
  constructor
  · rintro ⟨listed, hlist, rfl⟩
    exact ⟨listed, hlist, hpaths hlist⟩
  · rintro ⟨listed, hlist, rfl⟩
    exact ⟨listed, hlist, hpaths hlist⟩

theorem Tree.find_of_directory {t : Tree} {directory : String} (matcher : Pattern.Matcher)
    {place : Place} {entries : List (String × Node)} (h : t.directory? directory = some place)
    (hnode : place.node = .directory entries) :
    t.find directory matcher =
      .ok (((entries.map (·.1)).filter matcher.matches?).map (Path.join directory)) := by
  refine find_eq_ok_iff.2 ⟨_, list_eq_ok_iff.2 ⟨place, entries, h, hnode, rfl⟩, ?_⟩
  rw [List.map_map]
  rfl

/-- A search gives a result if its arguments are paths, the pattern compiles and the directory can
    be listed. -/
theorem World.search_eq_ok_iff {w : World} {root pattern cwd : Value} {found : List String} :
    w.search root pattern cwd = .ok found ↔ ∃ directory leaf matcher listed,
      WorkDir.resolve w.cwd root [] cwd = .ok directory ∧ Path.ofValue pattern = .ok leaf ∧
        (w.cache.compile leaf).1 = .ok matcher ∧ w.tree.list directory = .ok listed ∧
        found =
          ((listed.map Tree.Entry.name).filter matcher.matches?).map (Path.join directory) := by
  simp only [search, bind_eq_ok_iff, mapError_eq_ok_iff, Tree.find_eq_ok_iff]
  constructor
  · rintro ⟨directory, hroot, leaf, hleaf, matcher, hmatcher, listed, hlist, hfound⟩
    exact ⟨directory, leaf, matcher, listed, hroot, hleaf, hmatcher, hlist, hfound⟩
  · rintro ⟨directory, leaf, matcher, listed, hroot, hleaf, hmatcher, hlist, hfound⟩
    exact ⟨directory, hroot, leaf, hleaf, matcher, hmatcher, listed, hlist, hfound⟩

/-- A search with texts compiles the pattern, and then looks at the directory. -/
theorem World.search_text {w : World} {b : String} {cwd : Value}
    (hb : WorkDir.base w.cwd cwd = .ok b) (directory leaf : String) :
    w.search (.text directory) (.text leaf) cwd =
      match (w.cache.compile leaf).1 with
      | .error e => .error (.badPattern e)
      | .ok matcher => w.tree.find (WorkDir.resolveFrom b directory []) matcher := by
  simp only [search, WorkDir.resolve, hb, Path.ofValue, bind, Except.bind]
  cases (w.cache.compile leaf).1 <;> rfl

theorem World.search_text_null (w : World) (directory leaf : String) :
    w.search (.text directory) (.text leaf) .null =
      match (w.cache.compile leaf).1 with
      | .error e => .error (.badPattern e)
      | .ok matcher => w.tree.find (WorkDir.resolveFrom w.cwd directory []) matcher :=
  search_text rfl directory leaf

namespace Action

/-- **What a search in a directory comes to.** -/
theorem result_globIn (root pattern cwd : Value) (w : World) :
    ((globIn root pattern cwd).run w).1 = w.search root pattern cwd := by
  refine result_bind (run_resolve root [] cwd w) fun directory => ?_
  refine result_bind (run_ofResult (Path.ofValue pattern) w) fun leaf => ?_
  refine result_bind (run_compile leaf w) fun matcher => ?_
  exact result_bind (run_list directory _) fun entries => rfl

/-- What a search with a full pattern comes to. -/
theorem result_glob (pattern cwd : Value) (w : World) :
    ((glob pattern cwd).run w).1 = (do
      let target := GlobTarget.ofPattern (← Path.ofValue pattern)
      w.search (.text target.directory) (.text target.leaf) cwd) := by
  exact result_bind (run_ofResult (Path.ofValue pattern) w) fun p => result_globIn _ _ cwd w

theorem result_glob_of_ofValue {pattern : Value} {p : String} (h : Path.ofValue pattern = .ok p)
    (cwd : Value) (w : World) :
    ((glob pattern cwd).run w).1 =
      w.search (.text (GlobTarget.ofPattern p).directory) (.text (GlobTarget.ofPattern p).leaf)
        cwd := by
  rw [result_glob, h]
  rfl

theorem result_glob_text (p : String) (cwd : Value) (w : World) :
    ((glob (.text p) cwd).run w).1 =
      w.search (.text (GlobTarget.ofPattern p).directory) (.text (GlobTarget.ofPattern p).leaf)
        cwd :=
  result_glob_of_ofValue rfl cwd w

end Action

end DirGlob
