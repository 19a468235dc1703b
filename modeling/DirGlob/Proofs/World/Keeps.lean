import DirGlob.Proofs.World.Result
import DirGlob.Session.Operation

set_option autoImplicit false

/-! # What operations leave alone

Operations read the world. All that they change in it is the cache of compiled patterns, and all
that they add to it are log records: a property that survives these two survives every operation,
whether the operation succeeds or fails (`Operation.keeps_run`).

An action keeps a property if all of its parts do, so the proofs follow the actions part by part. -/

namespace DirGlob

namespace Action

variable {α β : Type} {P : World → Prop}

/-! ## Keeping a property -/

/-- The action keeps a property of the world, whether it succeeds or fails. -/
def Keeps (P : World → Prop) (a : Action α) : Prop := ∀ w, P w → P (a.run w).2

theorem keeps_pure (x : α) : Keeps P (pure x : Action α) := fun _ h => h

theorem keeps_throw (f : Failure) : Keeps P (throw f : Action α) := fun _ h => h

theorem keeps_get : Keeps P (get : Action World) := fun _ h => h

theorem keeps_modify {f : World → World} (h : ∀ w, P w → P (f w)) :
    Keeps P (modify f : Action Unit) := h

theorem keeps_bind {a : Action α} {g : α → Action β} (ha : Keeps P a) (hg : ∀ x, Keeps P (g x)) :
    Keeps P (a >>= g) := by
  intro w hw
  have hkept := ha w hw
  cases hrun : a.run w with
  | mk result w' =>
      rw [hrun] at hkept
      cases result with
      | ok x =>
          rw [run_bind_of_ok hrun]
          exact hg x w' hkept
      | error f =>
          rw [run_bind_of_error hrun]
          exact hkept

theorem keeps_map {a : Action α} (g : α → β) (ha : Keeps P a) : Keeps P (g <$> a) := by
  rw [map_eq_pure_bind]
  exact keeps_bind ha fun _ => keeps_pure _

theorem keeps_discard {a : Action α} (ha : Keeps P a) : Keeps P (discard a) := keeps_map _ ha

theorem keeps_forIn {l : List α} {b : β} {body : α → β → Action (ForInStep β)}
    (h : ∀ x b, Keeps P (body x b)) : Keeps P (forIn l b body) := by
  induction l generalizing b with
  | nil => exact keeps_pure b
  | cons x l ih =>
      rw [List.forIn_cons]
      refine keeps_bind (h x b) fun step => ?_
      cases step with
      | done b => exact keeps_pure b
      | yield b => exact ih

theorem keeps_ofResult (result : Except Failure α) : Keeps P (ofResult result) := by
  cases result with
  | ok x => exact keeps_pure x
  | error f => exact keeps_throw f

theorem keeps_attempt {a : Action α} (ha : Keeps P a) : Keeps P (attempt a) := ha

/-! ## Operations -/

/-- A property of the world that compiling patterns and making records do not touch. -/
structure Lasting (P : World → Prop) : Prop where
  of_compile : ∀ w pattern, P w → P { w with cache := (w.cache.compile pattern).2 }
  of_log : ∀ w logger level message, P w →
    P { w with hub := w.hub.log logger level message, calm := w.calm.log logger level message }

theorem Lasting.keeps_log (hP : Lasting P) (logger : String) (level : Log.Level)
    (message : String) : Keeps P (log logger level message) :=
  keeps_modify fun w => hP.of_log w logger level.number message

theorem Lasting.keeps_compile (hP : Lasting P) (pattern : String) : Keeps P (compile pattern) := by
  intro w hw
  show P ((ofResult ((w.cache.compile pattern).1.mapError .badPattern)).run
    { w with cache := (w.cache.compile pattern).2 }).2
  exact keeps_ofResult _ _ (hP.of_compile w pattern hw)

theorem keeps_resolve (path : Value) (more : List Value) (cwd : Value) :
    Keeps P (resolve path more cwd) :=
  keeps_bind keeps_get fun _ => keeps_ofResult _

theorem keeps_list (directory : String) : Keeps P (list directory) :=
  keeps_bind keeps_get fun _ => keeps_ofResult _

theorem Lasting.keeps_globIn (hP : Lasting P) (root pattern cwd : Value) :
    Keeps P (globIn root pattern cwd) := by
  refine keeps_bind (keeps_resolve root [] cwd) fun directory => ?_
  refine keeps_bind (keeps_ofResult _) fun name => ?_
  refine keeps_bind (hP.keeps_compile name) fun matcher => ?_
  refine keeps_bind (hP.keeps_log _ _ _) fun _ => ?_
  refine keeps_bind (keeps_list directory) fun entries => ?_
  exact keeps_bind (hP.keeps_log _ _ _) fun _ => keeps_pure _

theorem Lasting.keeps_glob (hP : Lasting P) (pattern cwd : Value) : Keeps P (glob pattern cwd) :=
  keeps_bind (keeps_ofResult _) fun _ => hP.keeps_globIn _ _ cwd

theorem Lasting.keeps_checkSettings (hP : Lasting P) (mode : Settings.Mode) (v : Value) :
    Keeps P (checkSettings mode v) := by
  refine keeps_bind keeps_get fun w => ?_
  refine keeps_bind (keeps_ofResult _) fun checked => ?_
  cases v with
  | dict given => exact keeps_pure checked
  | _ => exact keeps_bind (hP.keeps_log _ _ _) fun _ => keeps_pure checked

/-- Running something with another working directory keeps what also a change of the contexts
    keeps. -/
theorem Lasting.keeps_within (hP : Lasting P) (hcontexts : ∀ w c, P w → P { w with contexts := c })
    {a : Action α} (ha : Keeps P a) (path : Value) : Keeps P (within path a) := by
  refine keeps_bind (keeps_resolve path [] .null) fun directory => ?_
  refine keeps_bind keeps_get fun w => ?_
  refine keeps_bind (keeps_modify fun w => hcontexts w _) fun _ => ?_
  refine keeps_bind (hP.keeps_log _ _ _) fun _ => ?_
  refine keeps_bind (keeps_attempt ha) fun result => ?_
  refine keeps_bind (keeps_modify fun w => hcontexts w _) fun _ => ?_
  exact keeps_bind (hP.keeps_log _ _ _) fun _ => keeps_ofResult result

theorem Lasting.keeps_enterScope (hP : Lasting P)
    (hcontexts : ∀ w c, P w → P { w with contexts := c }) (handle : String) (path : Value) :
    Keeps P (enterScope handle path) := by
  refine keeps_bind (keeps_resolve path [] .null) fun directory => ?_
  refine keeps_bind (keeps_modify fun w => hcontexts w _) fun _ => ?_
  exact keeps_bind (hP.keeps_log _ _ _) fun _ => keeps_pure _

theorem Lasting.keeps_exitScope (hP : Lasting P)
    (hcontexts : ∀ w c, P w → P { w with contexts := c }) (handle : String) :
    Keeps P (exitScope handle) := by
  intro w hw
  rw [run_exitScope]
  refine keeps_bind (keeps_ofResult _) (fun _ => ?_) _ (hcontexts w _ hw)
  split
  · exact hP.keeps_log _ _ _
  · exact keeps_pure _

theorem keeps_defaultSettings : Keeps P defaultSettings :=
  keeps_bind keeps_get fun _ => keeps_pure _

end Action

open DirGlob.Action in
/-- Operations keep what compiling patterns and making records do not touch. -/
theorem Operation.keeps_run {P : World → Prop} (hP : Lasting P) (op : Operation) :
    Keeps P op.run := by
  cases op with
  | constants => exact keeps_pure _
  | split path => exact keeps_bind (keeps_ofResult _) fun _ => keeps_pure _
  | joinComponents components => exact keeps_pure _
  | regexText pattern => exact keeps_pure _
  | compile pattern => exact keeps_bind (hP.keeps_compile pattern) fun _ => keeps_pure _
  | compileAll patterns =>
      refine keeps_bind (keeps_forIn fun pattern _ => ?_) fun _ => ?_
      · exact keeps_bind (keeps_discard (hP.keeps_compile pattern)) fun _ => keeps_pure _
      · exact keeps_bind keeps_get fun _ => keeps_pure _
  | matchNames pattern names => exact keeps_bind (hP.keeps_compile pattern) fun _ => keeps_pure _
  | cacheState => exact keeps_bind keeps_get fun _ => keeps_pure _
  | pathText path => exact keeps_bind (keeps_ofResult _) fun _ => keeps_pure _
  | joinPath base parts => exact keeps_bind (keeps_ofResult _) fun _ => keeps_pure _
  | canonicalPath path =>
      refine keeps_bind (keeps_ofResult _) fun name => ?_
      exact keeps_bind keeps_get fun _ => keeps_bind (keeps_ofResult _) fun _ => keeps_pure _
  | list directory =>
      refine keeps_bind (keeps_ofResult _) fun name => ?_
      exact keeps_bind (keeps_list name) fun _ => keeps_pure _
  | workingDirectory => exact keeps_bind keeps_get fun _ => keeps_pure _
  | resolve path more cwd => exact keeps_bind (keeps_resolve path more cwd) fun _ => keeps_pure _
  | glob pattern cwd => exact keeps_bind (hP.keeps_glob pattern cwd) fun _ => keeps_pure _
  | globIn root pattern cwd =>
      exact keeps_bind (hP.keeps_globIn root pattern cwd) fun _ => keeps_pure _
  | defaultSettings => exact keeps_bind keeps_defaultSettings fun _ => keeps_pure _
  | checkSettings mode settings =>
      exact keeps_bind (hP.keeps_checkSettings mode settings) fun _ => keeps_pure _
  | mergeSettings base overrides => exact keeps_bind (keeps_ofResult _) fun _ => keeps_pure _
  | logSetup settings => exact keeps_bind (keeps_ofResult _) fun _ => keeps_pure _
  | levelNumber level => exact keeps_bind (keeps_ofResult _) fun _ => keeps_pure _
  | missingDirectory path =>
      exact keeps_bind (keeps_discard (keeps_ofResult _)) fun _ => keeps_pure _
  | readCommandLine arguments => exact keeps_pure _

/-- The contexts are not touched by operations. -/
theorem Operation.contexts_run (op : Operation) (w : World) :
    (op.run.run w).2.contexts = w.contexts := by
  have hlasting : Action.Lasting (·.contexts = w.contexts) := ⟨fun _ _ h => h, fun _ _ _ _ h => h⟩
  exact op.keeps_run hlasting w rfl

end DirGlob
