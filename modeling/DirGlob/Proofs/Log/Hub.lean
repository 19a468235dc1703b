import DirGlob.Log.Calm
import DirGlob.Proofs.Log.Disk
import Mathlib.Data.List.TakeWhile

set_option autoImplicit false

/-! # What the hub can come to

The hub is changed in few ways. A record only ever reaches the listener's queue and the error stream
(`take_eq`). Setting the log up first takes away all that is ours, which leaves a *cleared* hub, and
then ends in one of three ways (`Configures`): a listener runs and the queue feeds it; nothing is
asked for and the hub stays cleared; or a stage fails and the emergency console is put in.

Everything about whole lives of the log is derived from this. -/

namespace DirGlob.Log

/-! ## The listener -/

namespace Listener

@[simp]
theorem sinks_turn (l : Listener) (o : Outlets) : (l.turn o).1.sinks = l.sinks := by
  rw [turn]
  split <;> rfl

@[simp]
theorem running_turn (l : Listener) (o : Outlets) : (l.turn o).1.running = l.running := by
  rw [turn]
  split <;> rfl

/-- It does not matter when a record is written: in a turn, or when the listener is stopped. -/
theorem drain_turn (l : Listener) (o : Outlets) : (l.turn o).1.drain (l.turn o).2 = l.drain o := by
  rw [turn]
  split
  · next r pending _ hpending => simp only [drain, hpending, List.foldl_cons]
  · rfl

end Listener

/-! ## Records -/

namespace Hub

theorem reached_of_isCalm {h : Hub} (hcalm : h.IsCalm) : h.reached = h.handlers :=
  List.takeWhile_eq_self_iff.2 fun x hx => by rw [hcalm x hx]; rfl

/-- How often the hub queues a record that it takes. -/
def queues (h : Hub) : Nat := h.reached.countP (·.kind = .queue)

theorem foldl_handle (h : Hub) (r : Record) (hs : List Handler) :
    ∃ errors, hs.foldl (fun h x => h.handle r x) h =
      { h with
        listener := h.listener.map fun l =>
          { l with pending := l.pending ++ List.replicate (hs.countP (·.kind = .queue)) r }
        errors } := by
  induction hs generalizing h with
  | nil => exact ⟨h.errors, by simp⟩
  | cons x hs ih =>
      obtain ⟨errors, hrest⟩ := ih (h.handle r x)
      refine ⟨errors, ?_⟩
      rw [List.foldl_cons, hrest, handle]
      cases hkind : x.kind with
      | queue =>
          simp [hkind, Function.comp_def, Listener.enqueue, List.replicate_succ]
      | emergency => simp [hkind, writeError]
      | foreign n raises => simp [hkind]

/-- A record that the hub takes is queued once for each of its queues; besides that only the error
    stream can change. -/
theorem take_eq (h : Hub) (r : Record) :
    ∃ errors, h.take r =
      { h with
        listener := if r.level < h.level then h.listener else
          h.listener.map fun l => { l with pending := l.pending ++ List.replicate h.queues r }
        errors } := by
  rw [take]
  split
  · exact ⟨h.errors, rfl⟩
  · split
    · next hnone =>
      have hqueues : h.queues = 0 := by simp [queues, reached, hnone]
      split
      · exact ⟨h.errors, by simp [hqueues]⟩
      · exact ⟨h.errors ++ r.bareLine, by simp [hqueues, writeError]⟩
    · exact foldl_handle h r h.reached

theorem take_of_listener_none {h : Hub} (hnone : h.listener = none) (r : Record) :
    ∃ errors, h.take r = { h with errors } := by
  obtain ⟨errors, htake⟩ := h.take_eq r
  refine ⟨errors, htake.trans ?_⟩
  simp only [hnone]
  split <;> rfl

/-! ## What is ours -/

/-- The kinds of the handlers that are ours, in order. -/
def ours (h : Hub) : List HandlerKind := (h.handlers.filter (·.ours)).map (·.kind)

theorem ours_addOurs (h : Hub) (kind : HandlerKind) : (h.addOurs kind).ours = h.ours ++ [kind] := by
  simp [ours, addOurs]

theorem ours_addForeign (h : Hub) (raises : Bool) : (h.addForeign raises).ours = h.ours := by
  simp [ours, addForeign]

/-- The hub with nothing of ours: what waited is written, and the level, the disk and what stands on
    the error stream are as given. -/
def cleared (h : Hub) (level : Int) (disk : Disk) (errors : String) : Hub :=
  { h with
    level, errors
    configured := false
    handlers := h.handlers.filter (!·.ours)
    closed := h.closed ++ h.handlers.filter (·.ours)
    listener := none
    outlets := { h.shutdown.outlets with disk } }

theorem shutdown_setLevel (h : Hub) (level : Int) :
    { h with level }.shutdown = h.cleared level h.shutdown.outlets.disk h.errors := by
  obtain ⟨time, oldLevel, configured, handlers, closed, listener, foreigners, errors, outlets⟩ := h
  cases listener <;> simp [shutdown, cleared, stopListener]

theorem shutdown_eq_cleared (h : Hub) :
    h.shutdown = h.cleared h.level h.shutdown.outlets.disk h.errors :=
  h.shutdown_setLevel h.level

theorem ours_cleared (h : Hub) (level : Int) (disk : Disk) (errors : String) :
    (h.cleared level disk errors).ours = [] := by
  simp [ours, cleared]

theorem outlets_shutdown_cleared (h : Hub) (level : Int) (disk : Disk) (errors : String) :
    (h.cleared level disk errors).shutdown.outlets = { h.shutdown.outlets with disk } := rfl

theorem cleared_cleared (h : Hub) (level level' : Int) (disk disk' : Disk)
    (errors errors' : String) :
    (h.cleared level disk errors).cleared level' disk' errors' = h.cleared level' disk' errors' := by
  rw [cleared, outlets_shutdown_cleared]
  simp [cleared]

end Hub

/-! ## What a set-up asks for -/

namespace Config

/-- The level that is asked for, if it can be read. -/
def threshold (cfg : Config) : Int := ((Level.ofValue cfg.level).toOption.getD .info).number

theorem threshold_of_ok {cfg : Config} {l : Level} (h : Level.ofValue cfg.level = .ok l) :
    cfg.threshold = l.number := by
  rw [threshold, h]
  rfl

/-- The sink of the log file that is asked for, if it can be opened on this disk. -/
def fileSink? (cfg : Config) (d : Disk) (broken : Option Breakdown) : Option Sink :=
  if cfg.logFile.truthy then
    match (openLogFile d cfg cfg.threshold broken).2 with
    | .sink s => some s
    | _ => none
  else none

/-- A log file that is opened for a set-up takes its level, and it is the standard output if the path
    that is asked for leads there. -/
theorem fileSink?_eq_some {cfg : Config} {d : Disk} {broken : Option Breakdown} {s : Sink}
    (h : cfg.fileSink? d broken = some s) :
    ∃ name shownPath maxBytes backups, logFileName cfg.logFile = .ok name ∧
      s = .file cfg.threshold (d.absolute name) shownPath maxBytes backups
        (d.device? (d.absolute name) = some .output) := by
  refine (openLogFile_spec d cfg cfg.threshold broken).2 s ?_
  rw [Config.fileSink?] at h
  split at h
  · split at h
    · next hopened => rw [hopened, Option.some.inj h]
    · cases h
  · cases h

/-- The sinks that are asked for and can be had on this disk. -/
def sinks (cfg : Config) (d : Disk) (broken : Option Breakdown) : List Sink :=
  (if cfg.console.truthy then [.console cfg.threshold] else []) ++ (cfg.fileSink? d broken).toList

end Config

/-! ## How setting the log up ends -/

namespace Hub

/-- The hub with a listener that has just been started. -/
def listening (h : Hub) (sinks : List Sink) : Hub :=
  { h.addOurs .queue with listener := some (.start sinks), configured := true }

/-- How it ends to put these sinks to work in a cleared hub. No file has another text then. -/
inductive Attaches (h : Hub) (level : Int) (sinks : List Sink) : Hub × Option SetupFault → Prop where
  | failed {disk : Disk} {errors : String} {fault : SetupFault}
      (same : h.shutdown.outlets.disk.SameTexts disk) :
      Attaches h level sinks (h.cleared level disk errors, some fault)
  | idle {disk : Disk} {errors : String} (same : h.shutdown.outlets.disk.SameTexts disk)
      (none : sinks = []) : Attaches h level sinks (h.cleared level disk errors, .none)
  | listening {disk : Disk} {errors : String} (same : h.shutdown.outlets.disk.SameTexts disk)
      (some : sinks ≠ []) :
      Attaches h level sinks ((h.cleared level disk errors).listening sinks, .none)

theorem attaches_attach {h : Hub} {disk : Disk} (same : h.shutdown.outlets.disk.SameTexts disk)
    (level : Int) (errors : String) (sinks : List Sink) (broken : Option Breakdown) :
    Attaches h level sinks ((h.cleared level disk errors).attach sinks broken) := by
  rw [attach]
  split
  · next hnone => exact .idle same hnone
  · next hsome =>
    split
    · exact .failed same
    · exact .listening same hsome

theorem attaches_openSinks (h : Hub) (cfg : Config) (console : List Sink)
    (broken : Option Breakdown) :
    Attaches h cfg.threshold
      (console ++ (cfg.fileSink? h.shutdown.outlets.disk broken).toList)
      ((h.cleared cfg.threshold h.shutdown.outlets.disk h.errors).openSinks cfg cfg.threshold
        console broken) := by
  have hsame := (openLogFile_spec h.shutdown.outlets.disk cfg cfg.threshold broken).1
  rw [openSinks, Config.fileSink?]
  by_cases hfile : cfg.logFile.truthy = true
  · simp only [if_pos hfile, cleared]
    generalize openLogFile h.shutdown.outlets.disk cfg cfg.threshold broken = opened at hsame
    obtain ⟨disk, opened⟩ := opened
    cases opened with
    | sink s => exact attaches_attach hsame cfg.threshold h.errors _ broken
    | refused e =>
        rw [Option.toList_none, List.append_nil]
        exact attaches_attach hsame cfg.threshold _ _ broken
    | failed fault => exact .failed hsame
  · simp only [if_neg hfile, Option.toList_none, List.append_nil]
    exact attaches_attach (Disk.sameTexts_refl _) cfg.threshold h.errors _ broken

/-- Setting the log up fails before anything is changed, or everything of ours is taken away and the
    sinks that are asked for are put to work. -/
theorem install_cases (h : Hub) (cfg : Config) (broken : Option Breakdown) :
    (∃ fault, h.install cfg broken = (h, some fault)) ∨
      Attaches h cfg.threshold (cfg.sinks h.shutdown.outlets.disk broken)
        (h.install cfg broken) := by
  rw [install]
  split
  · exact .inl ⟨_, rfl⟩
  · split
    · exact .inl ⟨_, rfl⟩
    · next l hl =>
      right
      rw [← Config.threshold_of_ok hl]
      simp only [shutdown_setLevel]
      rw [Config.sinks]
      split
      · split
        · exact .failed (Disk.sameTexts_refl _)
        · exact attaches_openSinks h cfg _ broken
      · exact attaches_openSinks h cfg _ broken

/-- The emergency console is all that is ours once the hub has fallen back on it. -/
theorem fallBack_eq (h : Hub) (fault : SetupFault) :
    ∃ errors, h.fallBack fault =
      (h.cleared (Level.number .info) h.shutdown.outlets.disk errors).addOurs .emergency := by
  rw [fallBack, shutdown_eq_cleared]
  exact take_of_listener_none rfl _

/-- How a request to set the log up ends if it is not ignored. No file has another text then. -/
inductive SetsUp (h : Hub) (cfg : Config) (broken : Option Breakdown) : Hub → Prop where
  | idle {disk : Disk} {errors : String} (same : h.shutdown.outlets.disk.SameTexts disk)
      (none : cfg.sinks h.shutdown.outlets.disk broken = []) :
      SetsUp h cfg broken (h.cleared cfg.threshold disk errors)
  | listening {disk : Disk} {errors : String} (same : h.shutdown.outlets.disk.SameTexts disk)
      (some : cfg.sinks h.shutdown.outlets.disk broken ≠ []) :
      SetsUp h cfg broken
        ((h.cleared cfg.threshold disk errors).listening (cfg.sinks h.shutdown.outlets.disk broken))
  | emergency {disk : Disk} {errors : String} (same : h.shutdown.outlets.disk.SameTexts disk) :
      SetsUp h cfg broken ((h.cleared (Level.number .info) disk errors).addOurs .emergency)

theorem configure_cases (h : Hub) (cfg : Config) (force : Bool) (broken : Option Breakdown) :
    (h.configured = true ∧ force = false ∧ h.configure cfg force broken = h) ∨
      ((h.configured && !force) = false ∧ SetsUp h cfg broken (h.configure cfg force broken)) := by
  rw [configure]
  by_cases hignored : (h.configured && !force) = true
  · left
    obtain ⟨hconfigured, hforce⟩ := (Bool.and_eq_true _ _).mp hignored
    exact ⟨hconfigured, by simpa using hforce, if_pos hignored⟩
  · right
    refine ⟨by simpa using hignored, ?_⟩
    rw [if_neg hignored]
    rcases install_cases h cfg broken with ⟨fault, hinstall⟩ | hattaches
    · obtain ⟨errors, hfall⟩ := fallBack_eq h fault
      rw [hinstall]
      simp only [hfall]
      exact .emergency (Disk.sameTexts_refl _)
    · generalize h.install cfg broken = installed at hattaches
      cases hattaches with
      | @failed disk errors fault same =>
          -- Falling back clears a second time, which takes back the level of the failed set-up.
          obtain ⟨errors', hfall⟩ := fallBack_eq (h.cleared cfg.threshold disk errors) fault
          simp only [hfall, cleared_cleared]
          exact .emergency same
      | idle same hnone => exact .idle same hnone
      | listening same hsome => exact .listening same hsome

end Hub

end DirGlob.Log
