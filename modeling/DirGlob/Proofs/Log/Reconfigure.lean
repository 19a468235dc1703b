import DirGlob.Proofs.Log.Hub

set_option autoImplicit false

/-! # What a set-up leaves of the past

A set-up that is not ignored takes away all that is ours before it begins, so the state that it
comes to is a function of the request alone: of the configuration, of how the log file could be
opened, of the stage that broke down, if one did, and of the handlers of others
(`root_configure`, where `Config.rootState` is that function). Two histories that agree on these end
in the same state. -/

namespace DirGlob.Log

/-! ## What can be seen of the log -/

/-- What a sink writes to. -/
inductive SinkKind where
  | console
  | file
deriving Repr, DecidableEq

/-- The kind of a sink. -/
def Sink.kind : Sink → SinkKind
  | .console _ => .console
  | .file .. => .file

/-- The state of the log, as far as records and later requests have to do with it: the listener is
    known by whether it runs and by the kinds of its sinks. -/
structure RootState where
  level : Int
  configured : Bool
  listener : Option (Bool × List SinkKind)
  handlers : List Handler
deriving Repr, DecidableEq

namespace RootState

/-- Nothing of ours is at work. -/
def idle (others : List Handler) (level : Int) : RootState := ⟨level, false, none, others⟩

/-- The emergency console is in the place of a set-up. -/
def emergency (others : List Handler) : RootState :=
  ⟨Level.number .info, false, none, others ++ [⟨.emergency, true⟩]⟩

/-- A listener runs, and the queue feeds it. -/
def listening (others : List Handler) (level : Int) (kinds : List SinkKind) : RootState :=
  ⟨level, true, some (true, kinds), others ++ [⟨.queue, true⟩]⟩

end RootState

namespace Hub

/-- The state of the log. -/
def root (h : Hub) : RootState :=
  { level := h.level
    configured := h.configured
    listener := h.listener.map fun l => (l.running, l.sinks.map Sink.kind)
    handlers := h.handlers }

/-- The handlers without our mark, in order. -/
def others (h : Hub) : List Handler := h.handlers.filter (!·.ours)

end Hub

/-! ## What a request comes to -/

/-- How it ends to open a log file: nobody asks for one; it is opened; the log has to do without it;
    or the log cannot be set up. -/
inductive Opening where
  | unasked
  | opened
  | refused
  | failed
deriving Repr, DecidableEq

/-- Whether the stage breaks down. -/
def breaksAt (broken : Option Breakdown) (stage : Stage) : Bool :=
  (SetupFault.at? broken stage).isSome

/-- The state that it comes to when these sinks are put to work. -/
def RootState.attached (level : Int) (kinds : List SinkKind) (broken : Option Breakdown)
    (others : List Handler) : RootState :=
  if kinds = [] then .idle others level
  else if breaksAt broken .queue || breaksAt broken .listener then .emergency others
  else .listening others level kinds

namespace Config

/-- How it ends to open the log file that is asked for on this disk. -/
def opening (cfg : Config) (d : Disk) (broken : Option Breakdown) : Opening :=
  if cfg.logFile.truthy then
    match (openLogFile d cfg cfg.threshold broken).2 with
    | .sink _ => .opened
    | .refused _ => .refused
    | .failed _ => .failed
  else .unasked

/-- The kinds of the sinks that are asked for and can be had. -/
def sinkKinds (cfg : Config) (opening : Opening) : List SinkKind :=
  (if cfg.console.truthy then [.console] else []) ++ if opening = .opened then [.file] else []

/-- Whether a stage fails before there are sinks to start a listener with. -/
def failsEarly (cfg : Config) (opening : Opening) (broken : Option Breakdown) : Bool :=
  breaksAt broken .level || !(Level.ofValue cfg.level).isOk ||
    cfg.console.truthy && breaksAt broken .console || opening = .failed

/-- The state that a request comes to. -/
def rootState (cfg : Config) (opening : Opening) (broken : Option Breakdown)
    (others : List Handler) : RootState :=
  if cfg.failsEarly opening broken then .emergency others
  else .attached cfg.threshold (cfg.sinkKinds opening) broken others

/-- Behind the handlers of others there is at most one, which is ours, and a listener runs. -/
theorem rootState_cases (cfg : Config) (opening : Opening) (broken : Option Breakdown)
    (others : List Handler) :
    (∃ ours, (cfg.rootState opening broken others).handlers = others ++ ours ∧ ours.length ≤ 1 ∧
        ∀ x ∈ ours, x.ours = true) ∧
      ∀ l ∈ (cfg.rootState opening broken others).listener, l.1 = true := by
  have hidle : ∃ ours, others = others ++ ours ∧ ours.length ≤ 1 ∧ ∀ x ∈ ours, x.ours = true :=
    ⟨[], (List.append_nil _).symm, by simp, nofun⟩
  have hone (kind : HandlerKind) : ∃ ours, others ++ [⟨kind, true⟩] = others ++ ours ∧
      ours.length ≤ 1 ∧ ∀ x ∈ ours, x.ours = true := ⟨_, rfl, by simp, by simp⟩
  rw [rootState, RootState.attached]
  split
  · exact ⟨hone .emergency, nofun⟩
  · split
    · exact ⟨hidle, nofun⟩
    · split
      · exact ⟨hone .emergency, nofun⟩
      · exact ⟨hone .queue, by simp [RootState.listening]⟩

end Config

namespace Hub

/-! ## Setting the log up -/

/-- The state that it comes to once a set-up has ended: if it has failed, that of the emergency
    console. -/
def ending (result : Hub × Option SetupFault) : RootState :=
  if result.2.isSome then .emergency result.1.others else result.1.root

theorem others_cleared (h : Hub) (level : Int) (disk : Disk) (errors : String) :
    (h.cleared level disk errors).others = h.others := by
  simp [others, cleared]

theorem root_fallBack (h : Hub) (fault : SetupFault) :
    (h.fallBack fault).root = .emergency h.others := by
  obtain ⟨errors, hfall⟩ := fallBack_eq h fault
  rw [hfall]
  rfl

theorem ending_attach (h : Hub) (level : Int) (disk : Disk) (errors : String) (sinks : List Sink)
    (broken : Option Breakdown) :
    ending ((h.cleared level disk errors).attach sinks broken) =
      RootState.attached level (sinks.map Sink.kind) broken h.others := by
  rw [attach, RootState.attached]
  by_cases hnone : sinks = []
  · rw [if_pos hnone, if_pos (by rw [hnone]; rfl)]
    rfl
  · rw [if_neg hnone, if_neg (by simpa using hnone), breaksAt, breaksAt]
    cases SetupFault.at? broken .queue with
    | some f => exact congrArg RootState.emergency (others_cleared h level disk errors)
    | none =>
        cases SetupFault.at? broken .listener with
        | some f => exact congrArg RootState.emergency (others_cleared h level disk errors)
        | none => rfl

theorem ending_openSinks (h : Hub) (cfg : Config) (disk : Disk) (errors : String)
    (console : List Sink) (broken : Option Breakdown) :
    ending ((h.cleared cfg.threshold disk errors).openSinks cfg cfg.threshold console broken) =
      if cfg.opening disk broken = .failed then .emergency h.others
      else RootState.attached cfg.threshold
        (console.map Sink.kind ++ if cfg.opening disk broken = .opened then [.file] else [])
        broken h.others := by
  have hspec := (openLogFile_spec disk cfg cfg.threshold broken).2
  rw [openSinks, Config.opening]
  by_cases hfile : cfg.logFile.truthy = true
  · simp only [if_pos hfile, cleared]
    generalize openLogFile disk cfg cfg.threshold broken = opened at hspec
    obtain ⟨disk', opened⟩ := opened
    cases opened with
    | sink s =>
        obtain ⟨name, shownPath, maxBytes, backups, -, hs⟩ := hspec s rfl
        have hkind : s.kind = .file := by rw [hs, Sink.kind]
        have hattach := ending_attach h cfg.threshold disk' errors (console ++ [s]) broken
        rw [List.map_append, List.map_singleton, hkind] at hattach
        exact hattach
    | refused e =>
        have hattach (errors : String) :=
          ending_attach h cfg.threshold disk' errors console broken
        rw [← List.append_nil (console.map Sink.kind)] at hattach
        exact hattach _
    | failed fault => exact congrArg RootState.emergency (others_cleared h _ disk' errors)
  · simp only [if_neg hfile]
    rw [ending_attach]
    simp

theorem ending_install (h : Hub) (cfg : Config) (broken : Option Breakdown) :
    ending (h.install cfg broken) =
      cfg.rootState (cfg.opening h.shutdown.outlets.disk broken) broken h.others := by
  have hopen (console : List Sink) :=
    ending_openSinks h cfg h.shutdown.outlets.disk h.errors console broken
  rw [install, Config.rootState, Config.failsEarly, Config.sinkKinds, breaksAt, breaksAt]
  cases SetupFault.at? broken .level with
  | some f => rfl
  | none =>
      cases hl : Level.ofValue cfg.level with
      | error f => rfl
      | ok l =>
          simp only [shutdown_setLevel, Option.isSome_none, Bool.false_or, Except.isOk,
            Except.toBool, Bool.not_true]
          rw [← Config.threshold_of_ok hl]
          cases cfg.console.truthy with
          | false => simpa using hopen []
          | true =>
              cases SetupFault.at? broken .console with
              | some f => exact congrArg RootState.emergency (others_cleared h _ _ _)
              | none => simpa [Sink.kind] using hopen [.console cfg.threshold]

/-- **The state that a request comes to is a function of the request** and of the handlers of
    others, unless the request is ignored. -/
theorem root_configure {h : Hub} {force : Bool} (hdone : (h.configured && !force) = false)
    (cfg : Config) (broken : Option Breakdown) :
    (h.configure cfg force broken).root =
      cfg.rootState (cfg.opening h.shutdown.outlets.disk broken) broken h.others := by
  rw [← ending_install, configure, if_neg (by simp [hdone]), ending]
  split
  · next heq => rw [heq]; rfl
  · next h' fault heq =>
    rw [heq]
    exact root_fallBack h' fault

end Hub

/-- **A forced set-up forgets history.** Whatever has happened to the log in two histories, if they
    agree on the handlers of others and if the log file can be opened in both or fails in the same
    way, a forced request ends in the same state in both, and so does one that is not forced if the
    log is not set up. Behind the handlers of others that state has at most one handler, which is
    ours, and a listener that it has runs. -/
theorem root_configure_congr {h h' : Hub} {cfg : Config} {broken : Option Breakdown}
    (hothers : h.others = h'.others)
    (hopening : cfg.opening h.shutdown.outlets.disk broken =
      cfg.opening h'.shutdown.outlets.disk broken) :
    let ended := (h.configure cfg true broken).root
    (h'.configure cfg true broken).root = ended ∧
      (h'.configured = false → (h'.configure cfg false broken).root = ended) ∧
      (∃ ours, ended.handlers = h.others ++ ours ∧ ours.length ≤ 1 ∧
        ∀ x ∈ ours, x.ours = true) ∧
      ∀ l ∈ ended.listener, l.1 = true := by
  intro ended
  have hended : ended =
      cfg.rootState (cfg.opening h.shutdown.outlets.disk broken) broken h.others :=
    Hub.root_configure (by simp) cfg broken
  have hsame {force : Bool} (hdone : (h'.configured && !force) = false) :
      (h'.configure cfg force broken).root = ended := by
    rw [hended, Hub.root_configure hdone, hothers, hopening]
  refine ⟨hsame (by simp), fun hnot => hsame (by simp [hnot]), ?_⟩
  rw [hended]
  exact cfg.rootState_cases _ broken h.others

/-- A log that writes to a file and one that has fallen back on the emergency console. -/
theorem root_configure_of_emergency :
    let h := (Hub.start "t" (.empty "/home")).run [
      .configure { logFile := .text "l", level := .text "error" } false none, .addForeign true,
      .record ⟨"t", "a", 40, "one"⟩]
    let h' := (Hub.start "t" (.empty "/home")).run [
      .addForeign true, .configure {} true (some ⟨.listener, "no"⟩)]
    let cfg : Config := { logFile := .text "l", console := .null }
    h.others = h'.others ∧ h.root ≠ h'.root ∧ h'.configured = false ∧
      cfg.opening h.shutdown.outlets.disk none = cfg.opening h'.shutdown.outlets.disk none ∧
      (h.configure cfg true none).root = .listening [⟨.foreign 0 true, false⟩] 20 [.file] ∧
      (h'.configure cfg true none).root = (h.configure cfg true none).root ∧
      (h'.configure cfg false none).root = (h.configure cfg true none).root := by
  intro h h' cfg
  have hothers : h.others = h'.others := by decide +kernel
  have hopening : cfg.opening h.shutdown.outlets.disk none =
      cfg.opening h'.shutdown.outlets.disk none := by decide +kernel
  have hnot : h'.configured = false := by decide +kernel
  obtain ⟨hforced, hunforced, -⟩ := root_configure_congr hothers hopening
  exact ⟨hothers, by decide +kernel, hnot, hopening, by decide +kernel, hforced, hunforced hnot⟩

end DirGlob.Log
