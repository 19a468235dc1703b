import DirGlob.Log.Sink

set_option autoImplicit false

/-! # The hub of the log

All records come to the hub, which gives those at or above its level to its handlers. The handlers
of this library are marked as ours: the queue that the listener is fed through, and the emergency
console, which takes the place of the queue when the log could not be set up. Handlers of other
owners stay as they are. What they do with a record is their own affair, unless they raise an error:
then the record does not come to the handlers behind them.

Setting the log up is done once; a later request changes nothing unless it is forced, and then it
replaces whatever is ours. Setting it up never fails: what goes wrong on the way leads to the
emergency console. -/

namespace DirGlob.Log

/-- What a handler of the hub does with a record. -/
inductive HandlerKind where
  /-- Queues it for the listener. -/
  | queue
  /-- Writes it to the emergency console. -/
  | emergency
  /-- A handler of another owner, the given one of those that were added, and whether it raises an
      error when a record comes to it. -/
  | foreign (number : Nat) (raises : Bool)
deriving Repr, DecidableEq

/-- Whether a handler of this kind raises an error when a record comes to it. -/
def HandlerKind.raises : HandlerKind → Bool
  | .foreign _ raises => raises
  | _ => false

/-- A handler of the hub, and whether it is marked as ours. -/
structure Handler where
  kind : HandlerKind
  ours : Bool
deriving Repr, DecidableEq

/-- The hub: the time that records get, its level, whether the log is set up, the handlers in
    order, those that were closed, the listener, how many foreign handlers were added, what has been
    written to the error stream directly, and what the listener writes to. -/
structure Hub where
  time : String
  level : Int
  configured : Bool
  handlers : List Handler
  closed : List Handler
  listener : Option Listener
  foreigners : Nat
  errors : String
  outlets : Outlets
deriving Repr

namespace Hub

/-- The level of a hub that has not been set up. -/
def initialLevel : Int := Level.number .warning

/-- A hub that has not been set up. -/
def start (time : String) (disk : Disk) : Hub :=
  { time, level := initialLevel, configured := false, handlers := [], closed := [],
    listener := none, foreigners := 0, errors := "", outlets := ⟨"", disk, ""⟩ }

/-- Writes to the error stream. -/
def writeError (h : Hub) (text : String) : Hub := { h with errors := h.errors ++ text }

/-! ## Records -/

/-- Gives a record to a handler. -/
def handle (h : Hub) (r : Record) (handler : Handler) : Hub :=
  match handler.kind with
  | .queue => { h with listener := h.listener.map (·.enqueue r) }
  | .emergency => h.writeError r.emergencyLine
  | .foreign .. => h

/-- The handlers that get to do something with a record: those before the first one that raises an
    error. -/
def reached (h : Hub) : List Handler := h.handlers.takeWhile (!·.kind.raises)

/-- Takes a record. Without handlers a record of a warning or worse is shown as it is. An error that
    a handler raises gets out to whoever made the record. -/
def take (h : Hub) (r : Record) : Hub :=
  if r.level < h.level then h
  else if h.handlers = [] then
    if r.level < initialLevel then h else h.writeError r.bareLine
  else h.reached.foldl (fun h handler => h.handle r handler) h

/-- Makes a record and takes it. -/
def log (h : Hub) (logger : String) (level : Int) (message : String) : Hub :=
  h.take ⟨h.time, logger, level, message⟩

/-! ## Stopping -/

/-- Stops the listener. If closing the sinks fails, it says so for each of them. -/
def stopListener (h : Hub) (closingFails : Bool) : Hub :=
  match h.listener with
  | none => h
  | some l =>
    let (stopped, outlets) := l.stop h.outlets
    let complaints := if l.running && closingFails then
        l.sinks.map fun s => "WARNING: Failed to close log handler " ++ s.shown ++ "\n"
      else []
    { h with
      listener := some stopped, outlets, errors := complaints.foldl (· ++ ·) h.errors }

/-- Stops the listener, and takes away and closes every handler that is ours. -/
def shutdown (h : Hub) : Hub :=
  { h.stopListener false with
    listener := none
    handlers := h.handlers.filter (!·.ours)
    closed := h.closed ++ h.handlers.filter (·.ours)
    configured := false }

@[simp]
theorem configured_shutdown (h : Hub) : h.shutdown.configured = false := rfl

@[simp]
theorem listener_shutdown (h : Hub) : h.shutdown.listener = none := rfl

@[simp]
theorem handlers_stopListener (h : Hub) (closingFails : Bool) :
    (h.stopListener closingFails).handlers = h.handlers := by
  rw [stopListener]
  split <;> rfl

@[simp]
theorem level_stopListener (h : Hub) (closingFails : Bool) :
    (h.stopListener closingFails).level = h.level := by
  rw [stopListener]
  split <;> rfl

@[simp]
theorem handlers_shutdown (h : Hub) : h.shutdown.handlers = h.handlers.filter (!·.ours) := rfl

@[simp]
theorem level_shutdown (h : Hub) : h.shutdown.level = h.level := level_stopListener h false

/-! ## Setting up -/

/-- Adds a handler of ours. -/
def addOurs (h : Hub) (kind : HandlerKind) : Hub :=
  { h with handlers := h.handlers ++ [⟨kind, true⟩] }

/-- Starts a listener with these sinks; without sinks the log stays as it is. -/
def attach (h : Hub) (sinks : List Sink) (broken : Option Breakdown) : Hub × Option SetupFault :=
  if sinks = [] then (h, none)
  else match SetupFault.at? broken .queue <|> SetupFault.at? broken .listener with
    | some f => (h, some f)
    | none => ({ h.addOurs .queue with listener := some (.start sinks), configured := true }, none)

/-- Opens the log file, if there is to be one, and starts a listener with it and the console. A log
    file that cannot be opened is reported, and the log goes without it. -/
def openSinks (h : Hub) (cfg : Config) (level : Int) (console : List Sink)
    (broken : Option Breakdown) : Hub × Option SetupFault :=
  if cfg.logFile.truthy then
    let (disk, opened) := openLogFile h.outlets.disk cfg level broken
    let h := { h with outlets := { h.outlets with disk } }
    match opened with
    | .sink s => h.attach (console ++ [s]) broken
    | .refused e =>
      let spell (path : String) : String := (pathInKindOf cfg.logFile path).written
      (h.writeError ("WARNING: Cannot open log file '" ++ cfg.logFile.shown ++ "': " ++
        e.message spell ++ "\n")).attach console broken
    | .failed f => (h, some f)
  else h.attach console broken

/-- Sets the log up, replacing everything of ours. -/
def install (h : Hub) (cfg : Config) (broken : Option Breakdown) : Hub × Option SetupFault :=
  match SetupFault.at? broken .level with
  | some f => (h, some f)
  | none => match Level.ofValue cfg.level with
    | .error f => (h, some (.level f))
    | .ok l =>
      let level := l.number
      let h := { h with level }.shutdown
      if cfg.console.truthy then
        match SetupFault.at? broken .console with
        | some f => (h, some f)
        | none => h.openSinks cfg level [.console level] broken
      else h.openSinks cfg level [] broken

/-- Replaces everything of ours by the emergency console, and says why. -/
def fallBack (h : Hub) (fault : SetupFault) : Hub :=
  let h := { h.shutdown with level := Level.number .info }.addOurs .emergency
  h.log "" (Level.number .warning)
    ("Logging infrastructure failed (" ++ fault.message ++ "). Switched to emergency console.")

/-- Sets the log up, unless it is set up already and the request is not forced. -/
def configure (h : Hub) (cfg : Config) (force : Bool) (broken : Option Breakdown) : Hub :=
  if h.configured && !force then h
  else match h.install cfg broken with
    | (h, none) => h
    | (h, some fault) => h.fallBack fault

/-! ## Handlers of others -/

/-- Adds a handler of another owner, which may raise an error when a record comes to it. -/
def addForeign (h : Hub) (raises : Bool) : Hub :=
  { h with
    handlers := h.handlers ++ [⟨.foreign h.foreigners raises, false⟩]
    foreigners := h.foreigners + 1 }

/-- Marks the handler at an index as ours; a negative index counts from the end. -/
def markOurs? (h : Hub) (index : Int) : Option Hub :=
  let i := if index < 0 then index + h.handlers.length else index
  if i < 0 ∨ h.handlers.length ≤ i then none
  else some { h with handlers := h.handlers.modify i.toNat fun x => { x with ours := true } }

end Hub

end DirGlob.Log
