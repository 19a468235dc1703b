import DirGlob.Proofs.Log.Hub

set_option autoImplicit false

/-! # Handlers of others

Our handlers and those of others share one list, and ours come and go in it. What keeps the others
safe is that the mark tells them apart: at each point of the life of the log, the handlers that are
not ours are those of others (`Hub.Respects`). Stopping the log goes by the mark, so that it takes
away and closes ours only, and so does every set-up, however it ends. -/

namespace DirGlob.Log

/-- Whether a handler of this kind belongs to another owner. -/
def HandlerKind.isForeign : HandlerKind → Bool
  | .foreign .. => true
  | _ => false

/-- The handler of another owner, as it is added: without our mark. -/
def Handler.foreign (number : Nat) (raises : Bool) : Handler := ⟨.foreign number raises, false⟩

/-- Whether the handler that another owner adds raises errors, if one is added. -/
def Event.foreign? : Event → Option Bool
  | .addForeign raises => some raises
  | _ => none

/-- The handlers that other owners add in these events, in order. -/
def addedForeign (es : List Event) : List Handler :=
  (es.filterMap Event.foreign?).mapIdx Handler.foreign

theorem addedForeign_concat (es : List Event) (e : Event) :
    addedForeign (es ++ [e]) = addedForeign es ++
      (e.foreign?.map (.foreign (addedForeign es).length)).toList := by
  rw [addedForeign, List.filterMap_append]
  cases h : e.foreign? with
  | none => simp [h, addedForeign]
  | some raises => simp [h, addedForeign, List.mapIdx_concat]

namespace Hub

/-- The handlers of other owners, in order. -/
def foreignHandlers (h : Hub) : List Handler := h.handlers.filter (·.kind.isForeign)

/-- The hub has left these handlers of others alone: they are in it as they were added, all other
    handlers are marked as ours, and only such were closed. -/
structure Respects (h : Hub) (others : List Handler) : Prop where
  number : h.foreigners = others.length
  foreign : h.foreignHandlers = others
  ours_eq : ∀ x ∈ h.handlers, x.ours = !x.kind.isForeign
  closed : ∀ x ∈ h.closed, x.kind.isForeign = false

variable {h h' : Hub} {others : List Handler}

theorem respects_start (time : String) (disk : Disk) : (start time disk).Respects [] :=
  ⟨rfl, rfl, nofun, nofun⟩

theorem Respects.congr (hh : h.Respects others) (hnumber : h'.foreigners = h.foreigners)
    (hhandlers : h'.handlers = h.handlers) (hclosed : h'.closed = h.closed) :
    h'.Respects others where
  number := hnumber ▸ hh.number
  foreign := by rw [foreignHandlers, hhandlers, ← foreignHandlers, hh.foreign]
  ours_eq := hhandlers ▸ hh.ours_eq
  closed := hclosed ▸ hh.closed

/-- The handlers without our mark are those of others. -/
theorem Respects.filter_not_ours (hh : h.Respects others) :
    h.handlers.filter (!·.ours) = others := by
  rw [← hh.foreign, foreignHandlers]
  refine List.filter_congr fun x hx => ?_
  rw [hh.ours_eq x hx, Bool.not_not]

theorem Respects.cleared (hh : h.Respects others) (level : Int) (disk : Disk) (errors : String) :
    (h.cleared level disk errors).Respects others where
  number := hh.number
  foreign := by
    have hothers : (h.cleared level disk errors).handlers = others := hh.filter_not_ours
    rw [foreignHandlers, hothers, ← hh.foreign, foreignHandlers, List.filter_filter]
    simp only [Bool.and_self]
  ours_eq x hx := hh.ours_eq x (List.mem_filter.1 hx).1
  closed := by
    refine List.forall_mem_append.2 ⟨hh.closed, fun x hx => ?_⟩
    obtain ⟨hmem, hours⟩ := List.mem_filter.1 hx
    simpa [hh.ours_eq x hmem] using hours

theorem Respects.addOurs (hh : h.Respects others) {kind : HandlerKind}
    (hkind : kind.isForeign = false) : (h.addOurs kind).Respects others where
  number := hh.number
  foreign := by
    rw [foreignHandlers, Hub.addOurs, List.filter_append, ← foreignHandlers, hh.foreign]
    simp [hkind]
  ours_eq := List.forall_mem_append.2 ⟨hh.ours_eq, by simp [hkind]⟩
  closed := hh.closed

/-! ## Events -/

theorem Respects.configure (hh : h.Respects others) (cfg : Config) (force : Bool)
    (broken : Option Breakdown) : (h.configure cfg force broken).Respects others := by
  rcases configure_cases h cfg force broken with ⟨-, -, hsame⟩ | ⟨-, hends⟩
  · rwa [hsame]
  · generalize h.configure cfg force broken = h' at hends
    cases hends with
    | idle => exact hh.cleared _ _ _
    | listening => exact ((hh.cleared _ _ _).addOurs rfl).congr rfl rfl rfl
    | emergency => exact (hh.cleared _ _ _).addOurs rfl

theorem Respects.take (hh : h.Respects others) (r : Record) : (h.take r).Respects others := by
  obtain ⟨errors, htake⟩ := h.take_eq r
  rw [htake]
  exact hh.congr rfl rfl rfl

theorem Respects.shutdown (hh : h.Respects others) : h.shutdown.Respects others := by
  rw [shutdown_eq_cleared]
  exact hh.cleared _ _ _

theorem Respects.turn (hh : h.Respects others) : h.turn.Respects others := by
  rw [Hub.turn]
  split
  · exact hh
  · exact hh.congr rfl rfl rfl

theorem Respects.addForeign (hh : h.Respects others) (raises : Bool) :
    (h.addForeign raises).Respects (others ++ [.foreign others.length raises]) where
  number := by
    rw [List.length_append, List.length_singleton, ← hh.number]
    rfl
  foreign := by
    rw [foreignHandlers, Hub.addForeign, List.filter_append, ← foreignHandlers, hh.foreign,
      hh.number]
    rfl
  ours_eq := List.forall_mem_append.2 ⟨hh.ours_eq, by simp [HandlerKind.isForeign]⟩
  closed := hh.closed

/-- An event leaves the handlers of others alone, or adds one behind them. -/
theorem Respects.after {es : List Event} (hh : h.Respects (addedForeign es)) (e : Event) :
    (h.after e).Respects (addedForeign (es ++ [e])) := by
  have hnone (hsame : e.foreign? = none) : addedForeign (es ++ [e]) = addedForeign es := by
    rw [addedForeign_concat, hsame, Option.map_none, Option.toList_none, List.append_nil]
  cases e with
  | configure cfg force broken => exact hnone rfl ▸ hh.configure cfg force broken
  | record r => exact hnone rfl ▸ hh.take r
  | shutdown => exact hnone rfl ▸ hh.shutdown
  | turn => exact hnone rfl ▸ hh.turn
  | addForeign raises => exact addedForeign_concat es _ ▸ hh.addForeign raises

theorem Respects.run {es : List Event} (hh : h.Respects (addedForeign es)) (es' : List Event) :
    (h.run es').Respects (addedForeign (es ++ es')) := by
  induction es' generalizing h es with
  | nil => rwa [List.append_nil]
  | cons e es' ih =>
      rw [run_cons, ← List.singleton_append, ← List.append_assoc]
      exact ih (hh.after e)

end Hub

/-- **The handlers of others are left alone.** At every point of the life of the log, the handlers of
    others in the hub are those that were added, each once, without our mark and in the order in
    which they were added, and none of them was ever closed. When the log is stopped, nothing but
    them is left. -/
theorem foreignHandlers_run (time : String) (disk : Disk) (es : List Event) :
    ((Hub.start time disk).run es).foreignHandlers = addedForeign es ∧
      (∀ x ∈ ((Hub.start time disk).run es).closed, x.kind.isForeign = false) ∧
      ((Hub.start time disk).run (es ++ [.shutdown])).handlers = addedForeign es := by
  have hstart : (Hub.start time disk).Respects (addedForeign []) := Hub.respects_start time disk
  have hrespects : ((Hub.start time disk).run es).Respects (addedForeign es) := hstart.run es
  refine ⟨hrespects.foreign, hrespects.closed, ?_⟩
  rw [Hub.run_append]
  exact hrespects.filter_not_ours

end DirGlob.Log
