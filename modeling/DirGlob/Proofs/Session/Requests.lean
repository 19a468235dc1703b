import DirGlob.Proofs.Glob.Search
import DirGlob.Proofs.Pattern.Recency
import DirGlob.Proofs.Session.Happening

set_option autoImplicit false

/-! # What sessions ask of the cache

A session asks for compiled patterns in several ways: directly, one by one or many at once, and
whenever it searches a directory. Which patterns an operation asks for can be read off its
arguments (`Operation.requests`): a search whose directory is no path never comes to its pattern,
and many patterns are asked for up to the first that does not compile. All other operations, scopes
and contexts leave the cache alone.

So the cache of a session is at each point what its requests up to then make of it
(`recalls_run`), and compiling by way of it is compiling afresh (`compile_runSteps`). -/

namespace DirGlob

/-- Whether the value stands for a path. -/
def Path.isPath (v : Value) : Bool := (ofValue v).isOk

/-- Whether the value can be given as an explicit directory; none may be given. -/
def WorkDir.isBase : Value → Bool
  | .null => true
  | cwd => Path.isPath cwd

/-- The patterns that are asked for, one after the other: up to the first that does not compile. -/
def Pattern.attempted : List String → List String
  | [] => []
  | p :: ps => p :: if compiles p then attempted ps else []

namespace Operation

/-- The pattern that a search in a directory asks for, if it comes to that. -/
def searchRequests (root pattern cwd : Value) : List String :=
  if WorkDir.isBase cwd && Path.isPath root then (Path.ofValue pattern).toOption.toList else []

/-- The patterns that the operation asks the cache for, in order. -/
def requests : Operation → List String
  | compile pattern | matchNames pattern _ => [pattern]
  | compileAll patterns => Pattern.attempted patterns
  | glob pattern cwd =>
    match Path.ofValue pattern with
    | .ok p => searchRequests (.text (GlobTarget.ofPattern p).directory)
        (.text (GlobTarget.ofPattern p).leaf) cwd
    | .error _ => []
  | globIn root pattern cwd => searchRequests root pattern cwd
  | _ => []

end Operation

theorem WorkDir.isOk_resolve (ambient : String) (path cwd : Value) :
    (resolve ambient path [] cwd).isOk = (isBase cwd && Path.isPath path) := by
  have hbase : (base ambient cwd).isOk = isBase cwd := by
    by_cases hnull : cwd = .null
    · subst hnull
      rfl
    · rw [base_of_ne_null ambient hnull, isBase, Path.isPath]
      · cases Path.ofValue cwd <;> rfl
      · exact hnull
  rw [← hbase, resolve, Path.isPath]
  cases base ambient cwd with
  | error f => rfl
  | ok b => cases Path.ofValue path <;> rfl

namespace Action

variable {α β : Type}

/-! ## Actions that leave the cache alone -/

/-- The action leaves the cache as it is. -/
def Quiet (a : Action α) : Prop := ∀ c, Keeps (·.cache = c) a

theorem Quiet.cache_run {a : Action α} (h : Quiet a) (w : World) : (a.run w).2.cache = w.cache :=
  h w.cache w rfl

theorem quiet_pure (x : α) : Quiet (pure x : Action α) := fun _ => keeps_pure x

theorem quiet_ofResult (result : Except Failure α) : Quiet (ofResult result) :=
  fun _ => keeps_ofResult result

theorem quiet_modify {f : World → World} (h : ∀ w, (f w).cache = w.cache) :
    Quiet (modify f : Action Unit) := fun _ => keeps_modify fun w hw => (h w).trans hw

theorem quiet_log (logger : String) (level : Log.Level) (message : String) :
    Quiet (log logger level message) := quiet_modify fun _ => rfl

theorem Quiet.bind {a : Action α} {g : α → Action β} (ha : Quiet a) (hg : ∀ x, Quiet (g x)) :
    Quiet (a >>= g) := fun c => keeps_bind (ha c) fun x => hg x c

theorem Quiet.get_bind {g : World → Action β} (hg : ∀ w, Quiet (g w)) : Quiet (get >>= g) :=
  fun c => keeps_bind keeps_get fun w => hg w c

theorem quiet_resolve (path : Value) (more : List Value) (cwd : Value) :
    Quiet (resolve path more cwd) := fun _ => keeps_resolve path more cwd

theorem quiet_list (directory : String) : Quiet (list directory) := fun _ => keeps_list directory

theorem quiet_checkSettings (mode : Settings.Mode) (v : Value) : Quiet (checkSettings mode v) := by
  refine Quiet.get_bind fun w => (quiet_ofResult _).bind fun checked => ?_
  cases v with
  | dict given => exact quiet_pure checked
  | _ => exact (quiet_log _ _ _).bind fun _ => quiet_pure checked

/-! ## Actions that ask for patterns -/

/-- What follows leaves the cache as the action before it has left it. -/
theorem cache_bind {g : α → Action β} (hg : ∀ x, Quiet (g x)) (a : Action α) (w : World) :
    ((a >>= g).run w).2.cache = (a.run w).2.cache := by
  cases hrun : a.run w with
  | mk result w' =>
      cases result with
      | error f => rw [run_bind_of_error hrun]
      | ok x => rw [run_bind_of_ok hrun, (hg x).cache_run]

theorem cache_compile_bind {g : Pattern.Matcher → Action β} (hg : ∀ m, Quiet (g m))
    (pattern : String) (w : World) :
    ((compile pattern >>= g).run w).2.cache = w.cache.run [pattern] := by
  rw [cache_bind hg, run_compile]
  rfl

theorem cache_globIn (root pattern cwd : Value) (w : World) :
    ((globIn root pattern cwd).run w).2.cache =
      w.cache.run (Operation.searchRequests root pattern cwd) := by
  have hok := WorkDir.isOk_resolve w.cwd root cwd
  have hrun := run_resolve root [] cwd w
  rw [Operation.searchRequests, ← hok]
  cases hresolve : WorkDir.resolve w.cwd root [] cwd with
  | error f =>
      rw [hresolve] at hrun
      rw [globIn, run_bind_of_error hrun]
      rfl
  | ok directory =>
      rw [hresolve] at hrun
      rw [globIn, run_bind_of_ok hrun]
      have hleaf := run_ofResult (Path.ofValue pattern) w
      cases hpattern : Path.ofValue pattern with
      | error f =>
          rw [hpattern] at hleaf
          rw [run_bind_of_error hleaf]
          rfl
      | ok leaf =>
          rw [hpattern] at hleaf
          rw [run_bind_of_ok hleaf]
          refine cache_compile_bind (fun m => (quiet_log _ _ _).bind fun _ => ?_) leaf w
          exact (quiet_list directory).bind fun _ => (quiet_log _ _ _).bind fun _ => quiet_pure _

theorem cache_glob (pattern cwd : Value) (w : World) :
    ((glob pattern cwd).run w).2.cache = w.cache.run (Operation.glob pattern cwd).requests := by
  have hpath := run_ofResult (Path.ofValue pattern) w
  rw [glob, Operation.requests]
  cases hpattern : Path.ofValue pattern with
  | error f =>
      rw [hpattern] at hpath
      rw [run_bind_of_error hpath]
      rfl
  | ok p =>
      rw [hpattern] at hpath
      rw [run_bind_of_ok hpath]
      exact cache_globIn _ _ cwd w

theorem discard_bind (a : Action α) (g : Unit → Action β) :
    (discard a >>= g) = (a >>= fun _ => g ()) :=
  bind_map_left (fun _ => ()) a g

/-- What the cache is after patterns are compiled one after the other. -/
theorem cache_compileAll (patterns : List String) {w : World} (h : w.cache.Faithful) :
    ((forIn patterns PUnit.unit fun pattern _ => do
      discard (compile pattern)
      pure (.yield PUnit.unit) : Action PUnit).run w).2.cache =
        w.cache.run (Pattern.attempted patterns) := by
  induction patterns generalizing w with
  | nil => rfl
  | cons p ps ih =>
      have hrun := run_compile p w
      rw [h.compile_fst] at hrun
      rw [List.forIn_cons, bind_assoc, discard_bind, Pattern.attempted, Pattern.Cache.run_cons,
        Pattern.compiles]
      cases hresult : Pattern.Matcher.ofPattern p with
      | error e =>
          rw [hresult] at hrun
          rw [run_bind_of_error hrun]
          rfl
      | ok m =>
          rw [hresult] at hrun
          rw [run_bind_of_ok hrun]
          exact ih (h.compile p)

end Action

open DirGlob.Action in
/-- The cache after an operation is what the requests of the operation make of it. -/
theorem Operation.cache_run (op : Operation) {w : World} (h : w.cache.Faithful) :
    (op.run.run w).2.cache = w.cache.run op.requests := by
  cases op with
  | constants => rfl
  | split path => exact ((quiet_ofResult _).bind fun _ => quiet_pure _).cache_run w
  | joinComponents components => rfl
  | regexText pattern => rfl
  | compile pattern => exact cache_compile_bind (fun _ => quiet_pure _) pattern w
  | compileAll patterns =>
      exact (cache_bind (fun _ => Quiet.get_bind fun _ => quiet_pure _) _ w).trans
        (cache_compileAll patterns h)
  | matchNames pattern names => exact cache_compile_bind (fun _ => quiet_pure _) pattern w
  | cacheState => rfl
  | pathText path => exact ((quiet_ofResult _).bind fun _ => quiet_pure _).cache_run w
  | joinPath base parts => exact ((quiet_ofResult _).bind fun _ => quiet_pure _).cache_run w
  | canonicalPath path =>
      refine ((quiet_ofResult _).bind fun name => Quiet.get_bind fun w => ?_).cache_run w
      exact (quiet_ofResult _).bind fun _ => quiet_pure _
  | list directory =>
      refine ((quiet_ofResult _).bind fun name => ?_).cache_run w
      exact (quiet_list name).bind fun _ => quiet_pure _
  | workingDirectory => rfl
  | resolve path more cwd =>
      exact ((quiet_resolve path more cwd).bind fun _ => quiet_pure _).cache_run w
  | glob pattern cwd =>
      exact (cache_bind (fun _ => quiet_pure _) _ w).trans (cache_glob pattern cwd w)
  | globIn root pattern cwd =>
      exact (cache_bind (fun _ => quiet_pure _) _ w).trans (cache_globIn root pattern cwd w)
  | defaultSettings =>
      exact ((Quiet.get_bind fun _ => quiet_pure _).bind fun _ => quiet_pure _).cache_run w
  | checkSettings mode settings =>
      exact ((quiet_checkSettings mode settings).bind fun _ => quiet_pure _).cache_run w
  | mergeSettings base overrides =>
      exact ((quiet_ofResult _).bind fun _ => quiet_pure _).cache_run w
  | logSetup settings => exact ((quiet_ofResult _).bind fun _ => quiet_pure _).cache_run w
  | levelNumber level => exact ((quiet_ofResult _).bind fun _ => quiet_pure _).cache_run w
  | missingDirectory path =>
      rw [run, discard_bind]
      exact ((quiet_ofResult _).bind fun _ => quiet_pure _).cache_run w
  | readCommandLine arguments => rfl

/-- What a search finds does not depend on the cache, as long as it is faithful. -/
theorem World.search_empty {w : World} (h : w.cache.Faithful) (root pattern cwd : Value) :
    { w with cache := .empty }.search root pattern cwd = w.search root pattern cwd := by
  have hcompile (leaf : String) : (Pattern.Cache.empty.compile leaf).1 = (w.cache.compile leaf).1 :=
    (Pattern.Cache.faithful_empty.compile_fst leaf).trans (h.compile_fst leaf).symm
  simp only [search, hcompile]
  rfl

namespace Session

open DirGlob.Action

/-! ## Sessions -/

theorem quiet_enterScope (handle : String) (path : Value) : Quiet (enterScope handle path) := by
  refine (quiet_resolve path [] .null).bind fun directory => ?_
  refine Quiet.bind (quiet_modify fun _ => rfl) fun _ => ?_
  exact (quiet_log _ _ _).bind fun _ => quiet_pure _

theorem cache_exitScope (handle : String) (w : World) :
    ((exitScope handle).run w).2.cache = w.cache := by
  have hquiet : Quiet (ofResult (w.contexts.exit handle).2 >>= fun _ =>
      if (w.contexts.scope? handle).any (!·.spent) then
        log workDirLogger .debug
          ("Working directory restored: " ++ (w.contexts.exit handle).1.cwd)
      else pure ()) := by
    refine (quiet_ofResult _).bind fun _ => ?_
    split
    · exact quiet_log _ _ _
    · exact quiet_pure _
  rw [run_exitScope, hquiet.cache_run]

/-- The patterns that are asked for when this happens. -/
def Happening.requests : Happening → List String
  | .operation op => op.requests
  | _ => []

/-- The patterns that a session asks for, in order. -/
def requests (steps : List Step) : List String := (happenings steps).flatMap Happening.requests

theorem Progress.cache_next {p : Progress} (h : p.world.cache.Faithful) (e : Happening) :
    (p.next e).world.cache = p.world.cache.run e.requests := by
  cases e with
  | operation op =>
      show (answer op.run p.world).2.cache = _
      rw [answer_snd]
      exact op.cache_run h
  | enter handle path =>
      show (answer (enterScope handle path >>= fun s => pure (.text s)) p.world).2.cache = _
      rw [answer_snd, cache_bind fun _ => quiet_pure _, (quiet_enterScope handle path).cache_run]
      rfl
  | exit handle raising =>
      show (answer (exitScope handle >>= fun _ => pure (.flag false)) p.world).2.cache = _
      rw [answer_snd, cache_bind fun _ => quiet_pure _, cache_exitScope]
      rfl
  | nest mode => rfl
  | resume =>
      obtain ⟨w, answers, waiting⟩ := p
      cases waiting <;> rfl

/-- The cache has answered what happens, one after the other. -/
theorem Progress.recalls_run {p : Progress} {asked : List String} (h : p.world.cache.Recalls asked)
    (es : List Happening) :
    (p.run es).world.cache.Recalls (asked ++ es.flatMap Happening.requests) := by
  induction es generalizing p asked with
  | nil =>
      rw [List.flatMap_nil, List.append_nil]
      exact h
  | cons e es ih =>
      rw [List.flatMap_cons, ← List.append_assoc]
      refine ih ?_
      rw [Progress.cache_next h.faithful]
      exact h.run e.requests

theorem recalls_runSteps (tree : Tree) (initial : String) (disk : Log.Disk) (time : String)
    (fault : Option String) (steps : List Step) :
    (runSteps steps (.start tree initial disk time fault)).2.cache.Recalls (requests steps) := by
  have hrun := Progress.recalls_run (p := .start (.start tree initial disk time fault))
    Pattern.Cache.recalls_empty (happenings steps)
  rwa [run_happenings, List.nil_append] at hrun

/-- **The cache is transparent, and it keeps the patterns that were asked for last.** After any
    session it has counted each request once, it holds the latest of the patterns that compile, and
    searches find what they would find without it. The next pattern that is asked for is answered as
    if it were compiled afresh, and it is a hit exactly if it is held; if it does not compile, only
    the misses change. -/
theorem compile_runSteps (tree : Tree) (initial : String) (disk : Log.Disk) (time : String)
    (fault : Option String) (steps : List Step) :
    let asked := requests steps
    let w := (runSteps steps (.start tree initial disk time fault)).2
    w.cache.hits + w.cache.misses = asked.length ∧
      w.cache.entries.map (·.glob) = Pattern.recent asked ∧ w.cache.size ≤ 256 ∧
      (∀ root pattern cwd, ((globIn root pattern cwd).run w).1 =
        ((globIn root pattern cwd).run { w with cache := .empty }).1) ∧
      (∀ pattern cwd, ((glob pattern cwd).run w).1 =
        ((glob pattern cwd).run { w with cache := .empty }).1) ∧
      ∀ pattern,
        let after := ((compile pattern).run w).2.cache
        ((compile pattern).run w).1 = (Pattern.Matcher.ofPattern pattern).mapError .badPattern ∧
        after.hits = w.cache.hits + (if pattern ∈ Pattern.recent asked then 1 else 0) ∧
        after.misses = w.cache.misses + (if pattern ∈ Pattern.recent asked then 0 else 1) ∧
        ∀ e, Pattern.Matcher.ofPattern pattern = .error e →
          after = { w.cache with misses := w.cache.misses + 1 } := by
  intro asked w
  have hrecalls : w.cache.Recalls asked := recalls_runSteps tree initial disk time fault steps
  have hfaithful := hrecalls.faithful
  refine ⟨hrecalls.total, hrecalls.globs, ?_, fun root pattern cwd => ?_, fun pattern cwd => ?_,
    fun pattern => ?_⟩
  · rw [Pattern.Cache.size, ← List.length_map (·.glob), hrecalls.globs]
    exact List.length_take_le _ _
  · rw [result_globIn, result_globIn, World.search_empty hfaithful]
  · simp only [result_glob, World.search_empty hfaithful]
  · simp only [run_compile, hfaithful.compile_fst]
    exact ⟨trivial, hrecalls.hits_compile pattern, hrecalls.misses_compile pattern,
      fun e he => hfaithful.compile_snd_of_error he⟩

end Session

end DirGlob
