import DirGlob.Proofs.Session.Requests

set_option autoImplicit false

/-! # Where a search fails

A search in a directory goes through stages. It reads its operands, the explicit directory first if
there is one, then the root, then the pattern; it compiles the pattern; it looks whether there is a
directory at the resolved path; and it lists that directory. Each stage can fail in its own way, and
the search fails in the way of the first stage that does, whatever the later ones would have come to
(`globIn_fails_in_order`). Only the compiling leaves a trace besides log records: a request that the
cache counts. -/

namespace DirGlob

/-! ## Reading the operands -/

namespace Path

/-- Whether the value is a text, or an object that gives one. -/
def isText : Value → Bool
  | .text _ | .pathLike (.text _) _ => true
  | _ => false

theorem isText_eq_isPath (v : Value) : isText v = isPath v := by
  cases v with
  | pathLike inner _ => cases inner <;> rfl
  | _ => rfl

theorem exists_ofValue_ok {v : Value} (h : isText v = true) : ∃ s, ofValue v = .ok s := by
  rw [isText_eq_isPath, isPath] at h
  cases hv : ofValue v with
  | ok s => exact ⟨s, rfl⟩
  | error f =>
      rw [hv] at h
      cases h

/-- What is no path is refused with an error of type. -/
theorem exists_ofValue_error {v : Value} (h : isText v = false) :
    ∃ f, ofValue v = .error f ∧ f.name = "TypeError" := by
  cases v with
  | text s => cases h
  | pathLike inner _ =>
      cases inner with
      | text s => cases h
      | _ => exact ⟨_, rfl, rfl⟩
  | _ => exact ⟨_, rfl, rfl⟩

/-- Of several values that are read one after the other, the first that is no path is refused. -/
theorem mapM_ofValue_of_find? {vs : List Value} {v : Value}
    (h : vs.find? (!isText ·) = some v) :
    ∃ f, ofValue v = .error f ∧ f.name = "TypeError" ∧ vs.mapM ofValue = .error f := by
  induction vs with
  | nil => cases h
  | cons x vs ih =>
      rw [List.mapM_cons]
      cases hx : isText x with
      | false =>
          rw [List.find?_cons_of_pos (by simp [hx])] at h
          obtain rfl : x = v := Option.some.inj h
          obtain ⟨f, hf, hname⟩ := exists_ofValue_error hx
          refine ⟨f, hf, hname, ?_⟩
          rw [hf]
          rfl
      | true =>
          rw [List.find?_cons_of_neg (by simp [hx])] at h
          obtain ⟨s, hs⟩ := exists_ofValue_ok hx
          obtain ⟨f, hf, hname, hrest⟩ := ih h
          refine ⟨f, hf, hname, ?_⟩
          rw [hs, hrest]
          rfl

end Path

/-- The operands of a search in a directory, in the order in which they are read. -/
def Operation.operands (root pattern : Value) : Value → List Value
  | .null => [root, pattern]
  | cwd => [cwd, root, pattern]

/-- The first operand that is no path. -/
def Operation.refused? (root pattern cwd : Value) : Option Value :=
  (operands root pattern cwd).find? (!Path.isText ·)

theorem Operation.operands_of_ne_null (root pattern : Value) {cwd : Value} (h : cwd ≠ .null) :
    operands root pattern cwd = [cwd, root, pattern] := by
  cases cwd with
  | null => exact absurd rfl h
  | _ => rfl

/-- It makes no difference to read the operands in front of what reads them one by one. -/
theorem Operation.mapM_operands_bind {α : Type} (ambient : String) (root pattern cwd : Value)
    (rest : String → String → Except Failure α) :
    (do
      let _ ← (operands root pattern cwd).mapM Path.ofValue
      let directory ← WorkDir.resolve ambient root [] cwd
      let leaf ← Path.ofValue pattern
      rest directory leaf) = (do
      let directory ← WorkDir.resolve ambient root [] cwd
      let leaf ← Path.ofValue pattern
      rest directory leaf) := by
  -- Which operands are refused decides on both sides where the reading stops.
  by_cases hnull : cwd = .null
  · subst hnull
    simp only [operands, List.mapM_cons, List.mapM_nil, bind_assoc, WorkDir.resolve]
    cases Path.ofValue root <;> cases Path.ofValue pattern <;> rfl
  · simp only [operands_of_ne_null root pattern hnull, List.mapM_cons, List.mapM_nil, bind_assoc,
      WorkDir.resolve, WorkDir.base_of_ne_null ambient hnull]
    cases Path.ofValue cwd <;> cases Path.ofValue root <;> cases Path.ofValue pattern <;> rfl

namespace World

open Operation

variable {w : World} {root pattern cwd v : Value}

theorem search_of_refused (w : World) (h : refused? root pattern cwd = some v) :
    ∃ f, Path.ofValue v = .error f ∧ f.name = "TypeError" ∧
      w.search root pattern cwd = .error f := by
  obtain ⟨f, hf, hname, hread⟩ := Path.mapM_ofValue_of_find? h
  refine ⟨f, hf, hname, ?_⟩
  rw [search, ← mapM_operands_bind, hread]
  rfl

end World

/-- The operands of a search can be read exactly if each of them is a path. -/
theorem Operation.refused?_eq_none_iff {root pattern cwd : Value} :
    refused? root pattern cwd = none ↔
      WorkDir.isBase cwd = true ∧ Path.isPath root = true ∧ Path.isPath pattern = true := by
  by_cases hnull : cwd = .null
  · subst hnull
    simp [refused?, operands, Path.isText_eq_isPath, WorkDir.isBase]
  · have hbase : WorkDir.isBase cwd = Path.isPath cwd := by
      rw [WorkDir.isBase]
      exact hnull
    rw [refused?, operands_of_ne_null root pattern hnull, hbase]
    simp [Path.isText_eq_isPath]

theorem Operation.searchRequests_of_refused {root pattern cwd v : Value}
    (h : refused? root pattern cwd = some v) : searchRequests root pattern cwd = [] := by
  rw [searchRequests]
  split
  · next hread =>
    obtain ⟨hcwd, hroot⟩ := (Bool.and_eq_true _ _).mp hread
    cases hpattern : Path.ofValue pattern with
    | error f => rfl
    | ok leaf =>
        have hnone : refused? root pattern cwd = none :=
          refused?_eq_none_iff.2 ⟨hcwd, hroot, by rw [Path.isPath, hpattern]; rfl⟩
        rw [h] at hnone
        cases hnone
  · rfl

/-! ## Looking at the directory -/

namespace Tree

variable {t : Tree} {directory : String}

theorem list_of_not_isDirectory (h : t.isDirectory directory = false) :
    t.list directory = .error (.directoryNotFound (.text directory)) := by
  rw [list, if_neg (by simp [h])]

/-- A directory that is there can fail to be listed only by its own fault. -/
theorem exists_fault_of_list {f : Failure} (h : t.isDirectory directory = true)
    (hlist : t.list directory = .error f) : ∃ fault, f = .listing fault directory := by
  rw [isDirectory_eq, Option.isSome_iff_exists] at h
  obtain ⟨d, hd⟩ := h
  have hdirectory := isDirectory_of_directory? hd
  rw [list_eq, hd, Option.map_some] at hlist
  cases hnode : d.node with
  | directory entries =>
      rw [hnode] at hlist
      cases hlist
  | faulty fault =>
      rw [hnode] at hlist
      exact ⟨fault, (Except.error.inj hlist).symm⟩
  | _ =>
      rw [hnode] at hdirectory
      cases hdirectory

end Tree

/-! ## The stages that are left -/

/-- The result is a failure with this name. -/
def FailsAs {α : Type} (name : String) (result : Except Failure α) : Prop :=
  ∃ f, result = .error f ∧ f.name = name

@[simp]
theorem failsAs_error {α : Type} {name : String} {f : Failure} :
    FailsAs name (.error f : Except Failure α) ↔ f.name = name := by
  simp [FailsAs]

@[simp]
theorem not_failsAs_ok {α : Type} {name : String} (a : α) :
    ¬FailsAs name (.ok a : Except Failure α) := nofun

/-- How a search ends once its operands are read: at the first stage that fails, or with what it
    has found. -/
inductive Tree.Searches (t : Tree) (directory leaf : String) :
    Except Failure (List String) → Prop where
  | malformed {e : Regex.Malformed} (pattern : Pattern.Matcher.ofPattern leaf = .error e) :
      Searches t directory leaf (.error (.badPattern e))
  | notFound {matcher : Pattern.Matcher} (pattern : Pattern.Matcher.ofPattern leaf = .ok matcher)
      (absent : t.isDirectory directory = false) :
      Searches t directory leaf (.error (.directoryNotFound (.text directory)))
  | unlisted {matcher : Pattern.Matcher} {fault : ListingFault}
      (pattern : Pattern.Matcher.ofPattern leaf = .ok matcher)
      (present : t.isDirectory directory = true)
      (listing : t.list directory = .error (.listing fault directory)) :
      Searches t directory leaf (.error (.listing fault directory))
  | found {matcher : Pattern.Matcher} {listed : List Tree.Entry}
      (pattern : Pattern.Matcher.ofPattern leaf = .ok matcher)
      (present : t.isDirectory directory = true) (listing : t.list directory = .ok listed) :
      Searches t directory leaf
        (.ok ((listed.filter fun e => matcher.matches? e.name).map Tree.Entry.path))

theorem Tree.searches_find (t : Tree) (directory leaf : String) :
    t.Searches directory leaf
      ((Pattern.Matcher.ofPattern leaf).mapError .badPattern >>= t.find directory) := by
  cases hpattern : Pattern.Matcher.ofPattern leaf with
  | error e => exact .malformed hpattern
  | ok matcher =>
      show t.Searches directory leaf (t.find directory matcher)
      rw [find]
      cases hlist : t.list directory with
      | error f =>
          cases hdirectory : t.isDirectory directory with
          | false =>
              obtain rfl := Except.error.inj ((list_of_not_isDirectory hdirectory).symm.trans hlist)
              exact .notFound hpattern hdirectory
          | true =>
              obtain ⟨fault, rfl⟩ := exists_fault_of_list hdirectory hlist
              exact .unlisted hpattern hdirectory hlist
      | ok listed =>
          have hdirectory : t.isDirectory directory = true := by
            by_contra hnot
            rw [list_of_not_isDirectory (by simpa using hnot)] at hlist
            cases hlist
          exact .found hpattern hdirectory hlist

namespace Tree.Searches

variable {t : Tree} {directory leaf : String} {result : Except Failure (List String)}

theorem not_typeError (h : t.Searches directory leaf result) : ¬FailsAs "TypeError" result := by
  cases h with
  | malformed | notFound => simp [Failure.name]
  | @unlisted _ fault => cases fault <;> simp [Failure.name]
  | found => exact not_failsAs_ok _

theorem badPattern_iff (h : t.Searches directory leaf result) :
    FailsAs "re.error" result ↔ ∃ e, Pattern.Matcher.ofPattern leaf = .error e := by
  cases h with
  | malformed pattern => simp [Failure.name, pattern]
  | notFound pattern => simp [Failure.name, pattern]
  | @unlisted _ fault pattern => cases fault <;> simp [Failure.name, pattern]
  | found pattern => simp [pattern]

theorem directoryNotFound_iff (h : t.Searches directory leaf result) {matcher : Pattern.Matcher}
    (hpattern : Pattern.Matcher.ofPattern leaf = .ok matcher) :
    FailsAs "DirectoryNotFound" result ↔ t.isDirectory directory = false := by
  cases h with
  | malformed pattern =>
      rw [hpattern] at pattern
      cases pattern
  | notFound _ absent => simp [Failure.name, absent]
  | @unlisted _ fault _ present => cases fault <;> simp [Failure.name, present]
  | found _ present => simp [present]

end Tree.Searches

/-- Once its operands are read, a search goes on to its other stages. -/
theorem World.search_of_readable {w : World} {root pattern cwd : Value} (hcache : w.cache.Faithful)
    (h : Operation.refused? root pattern cwd = none) :
    ∃ directory leaf, WorkDir.resolve w.cwd root [] cwd = .ok directory ∧
      Path.ofValue pattern = .ok leaf ∧ Operation.searchRequests root pattern cwd = [leaf] ∧
        w.tree.Searches directory leaf (w.search root pattern cwd) := by
  obtain ⟨hbase, hroot, hpattern⟩ := Operation.refused?_eq_none_iff.1 h
  have hread : (WorkDir.resolve w.cwd root [] cwd).isOk = true := by
    rw [WorkDir.isOk_resolve, hbase, hroot]
    rfl
  cases hresolve : WorkDir.resolve w.cwd root [] cwd with
  | error f =>
      rw [hresolve] at hread
      cases hread
  | ok directory =>
      have htext : Path.isText pattern = true := (Path.isText_eq_isPath pattern).trans hpattern
      obtain ⟨leaf, hleaf⟩ := Path.exists_ofValue_ok htext
      refine ⟨directory, leaf, rfl, hleaf, ?_, ?_⟩
      · rw [Operation.searchRequests, hbase, hroot, hleaf]
        rfl
      · rw [search, hresolve, hleaf]
        have hfind := w.tree.searches_find directory leaf
        rwa [← hcache.compile_fst leaf] at hfind

namespace Action

open Operation

/-- **A search fails at its first bad stage.** An operand that is no path is refused with an error
    of type, the explicit directory before the root and the root before the pattern. If all can be
    read, a pattern that does not compile is an error, whatever the directory is; if it compiles,
    there has to be a directory at the resolved path; if there is one, its own fault is passed on;
    and if it is listed, the search has a result. The cache counts a request exactly if the operands
    can be read, and the working directory stays as it is. -/
theorem globIn_fails_in_order {w : World} (hcache : w.cache.Faithful) (root pattern cwd : Value) :
    let result := ((globIn root pattern cwd).run w).1
    let after := ((globIn root pattern cwd).run w).2
    let refused := refused? root pattern cwd
    (FailsAs "TypeError" result ↔ refused.isSome = true) ∧
      (∀ v, refused = some v → ∃ f, Path.ofValue v = .error f ∧ result = .error f) ∧
      (refused = none → ∃ directory leaf,
        ((resolve root [] cwd).run w).1 = .ok directory ∧ Path.ofValue pattern = .ok leaf ∧
          w.tree.Searches directory leaf result ∧
          (FailsAs "re.error" result ↔ ∃ e, Pattern.Matcher.ofPattern leaf = .error e) ∧
          ∀ matcher, Pattern.Matcher.ofPattern leaf = .ok matcher →
            (FailsAs "DirectoryNotFound" result ↔ w.tree.isDirectory directory = false)) ∧
      after.cache.hits + after.cache.misses =
        w.cache.hits + w.cache.misses + (if refused.isSome then 0 else 1) ∧
      (refused.isSome = true → after.cache = w.cache) ∧
      after.contexts = w.contexts := by
  intro result after refused
  have hresult : result = w.search root pattern cwd := result_globIn root pattern cwd w
  have hafter : after.cache = w.cache.run (searchRequests root pattern cwd) :=
    cache_globIn root pattern cwd w
  have hlasting : Lasting (·.contexts = w.contexts) := ⟨fun _ _ h => h, fun _ _ _ _ h => h⟩
  have hcontexts : after.contexts = w.contexts := hlasting.keeps_globIn root pattern cwd w rfl
  rw [hresult, hafter]
  cases hrefused : refused with
  | some v =>
      obtain ⟨f, hf, hname, hsearch⟩ := w.search_of_refused hrefused
      rw [hsearch, searchRequests_of_refused hrefused]
      refine ⟨by simp [hname], ?_, nofun, rfl, fun _ => rfl, hcontexts⟩
      rintro _ ⟨⟩
      exact ⟨f, hf, rfl⟩
  | none =>
      obtain ⟨directory, leaf, hroot, hleaf, hrequests, hsearches⟩ :=
        World.search_of_readable hcache hrefused
      have hresolve : ((resolve root [] cwd).run w).1 = .ok directory := by
        rw [run_resolve, hroot]
      rw [hrequests]
      refine ⟨by simp [hsearches.not_typeError], nofun, fun _ => ?_,
        w.cache.hits_add_misses_compile leaf, nofun, hcontexts⟩
      exact ⟨directory, leaf, hresolve, hleaf, hsearches, hsearches.badPattern_iff,
        fun _ => hsearches.directoryNotFound_iff⟩

/-- Two operands that are no paths, a malformed pattern for a directory that is not there, and a
    file in the place of a directory. -/
theorem globIn_fails_in_order_of_two_faults :
    let w := World.start ⟨[("f", .file)]⟩ "/" (.empty "/home") "" none
    let root : Value := .pathLike (.text "f") ⟨"f", "at f"⟩
    w.cache.Faithful ∧
      ((globIn (.int 1) (.bytes []) (.text "c")).run w).1 = .error (.notAPath "int") ∧
      ((globIn (.int 1) (.bytes []) (.text "c")).run w).2.cache = w.cache ∧
      FailsAs "re.error" ((globIn (.text "gone") (.text "[") .null).run w).1 ∧
      ((globIn (.text "gone") (.text "[") .null).run w).2.cache.misses = 1 ∧
      FailsAs "DirectoryNotFound" ((globIn root (.text "*") .null).run w).1 := by
  intro w root
  have hcache : w.cache.Faithful := Pattern.Cache.faithful_empty
  have hfile : w.tree.isDirectory "/f" = false := by
    have hsteps : Path.steps "/f" = ["", "f"] := by decide
    simp [w, World.start, Tree.isDirectory, Tree.lookup?, hsteps, Tree.root, Place.walk,
      Place.child?, Node.entry?, Node.isDirectory]
  have hpath : WorkDir.resolveFrom "/" "f" [] = "/f" := by decide
  obtain ⟨-, hrefused, -, -, hquiet, -⟩ :=
    globIn_fails_in_order hcache (.int 1) (.bytes []) (.text "c")
  obtain ⟨f, ⟨⟩, htype⟩ := hrefused (.int 1) rfl
  obtain ⟨-, -, hmalformed, -⟩ := globIn_fails_in_order hcache (.text "gone") (.text "[") .null
  obtain ⟨_, _, -, ⟨⟩, -, hre, -⟩ := hmalformed rfl
  obtain ⟨-, -, habsent, -⟩ := globIn_fails_in_order hcache root (.text "*") .null
  obtain ⟨_, _, ⟨⟩, ⟨⟩, -, -, hgone⟩ := habsent rfl
  exact ⟨hcache, htype, hquiet rfl, hre.2 ⟨_, rfl⟩, rfl,
    (hgone _ rfl).2 ((congrArg w.tree.isDirectory hpath).trans hfile)⟩

end Action

end DirGlob
