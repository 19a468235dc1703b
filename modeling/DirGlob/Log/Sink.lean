import DirGlob.Log.Config
import DirGlob.Log.Disk
import DirGlob.Log.Record
import DirGlob.Number.Integer
import DirGlob.Path.Operand

set_option autoImplicit false

/-! # Where records are written

A sink is the console or a log file. A log file is rotated: when a record could make it as long as
the limit, the file is first moved aside, the older ones before it are moved on, and the oldest is
lost. Without a place for older files nothing is moved, and the file goes on growing. A device is
never rotated. If it is the standard output of the program, what is written to it stands there among
what the program prints.

The listener takes the records from a queue and writes each to all of its sinks. A record that is
queued after the listener was stopped is never written. -/

namespace DirGlob.Log

/-! ## Faults -/

/-- A stage of setting the log up. -/
inductive Stage where
  /-- Reading the level, before anything is changed. -/
  | level
  | console
  /-- Making the sink of the log file, once its directory is there and its limits are read. -/
  | file
  | queue
  | listener
deriving Repr, DecidableEq

/-- A stage that breaks down, and the text of the reason. -/
structure Breakdown where
  stage : Stage
  text : String
deriving Repr, DecidableEq

/-- Why the log could not be set up. -/
inductive SetupFault where
  /-- The level cannot be shown. -/
  | level (f : Failure)
  /-- The log file is no path. -/
  | path (f : Failure)
  | nulInPath
  /-- A limit of the log file is no number. -/
  | limit (e : IntegerError)
  /-- A stage broke down. -/
  | broken (text : String)
deriving Repr

namespace SetupFault

/-- The text of the fault. -/
def message : SetupFault → String
  | .level f | .path f => f.message
  | .nulInPath => Failure.nulInPath.message
  | .limit e => e.message
  | .broken text => text

/-- The fault of a stage, if it is the one that breaks down. -/
def at? (broken : Option Breakdown) (stage : Stage) : Option SetupFault :=
  (broken.filter (·.stage = stage)).map fun b => .broken b.text

end SetupFault

/-! ## Sinks -/

/-- The console or a log file, with the least level that it takes. -/
inductive Sink where
  | console (level : Int)
  /-- A log file, its path as it is shown, the length at which it is rotated, how many older files
      are kept, and whether it is the standard output. -/
  | file (level : Int) (path shownPath : String) (maxBytes backups : Int) (isOutput : Bool)
deriving Repr, DecidableEq

/-- What the listener writes to: the console, the disk, and the standard output if a log file leads
    there. -/
structure Outlets where
  console : String
  disk : Disk
  output : String
deriving Repr, DecidableEq

namespace Sink

/-- The least level that the sink takes. -/
def level : Sink → Int
  | console level | file level .. => level

/-- The sink as it is shown when closing it failed. -/
def shown : Sink → String
  | console level => "<StreamHandler (" ++ levelText level ++ ")>"
  | file level _ path .. => "<RotatingFileHandler " ++ path ++ " (" ++ levelText level ++ ")>"

/-- The path of an older log file. -/
def olderPath (path : String) (n : Nat) : String := path ++ "." ++ toString n

/-- Moves a log file and `backups - 1` older ones on, and starts an empty one; with no place for
    older ones nothing changes. -/
def rotate (d : Disk) (path : String) (backups : Int) : Disk :=
  if backups ≤ 0 then d
  else
    let shifted := (List.range (backups.toNat - 1)).reverse.foldl
      (fun d i => d.move (olderPath path (i + 1)) (olderPath path (i + 2))) d
    (shifted.move path (olderPath path 1)).put path (.file "")

/-- Whether a line could make the file as long as the limit; a device is never full. -/
def isFull (d : Disk) (path : String) (maxBytes : Int) (line : String) : Bool :=
  (d.device? path).isNone && 0 < maxBytes &&
    maxBytes ≤ (d.textOf path).utf8ByteSize + line.length

/-- Writes a record, if its level is high enough. -/
def write (o : Outlets) (r : Record) (s : Sink) : Outlets :=
  if r.level < s.level then o
  else match s with
    | console _ => { o with console := o.console ++ r.consoleLine }
    | file _ path _ maxBytes backups isOutput =>
      let line := r.fileLine
      let disk := if isFull o.disk path maxBytes line then rotate o.disk path backups else o.disk
      { o with
        disk := disk.append path line
        output := if isOutput then o.output ++ line else o.output }

end Sink

/-! ## Opening a log file -/

/-- What came of opening a log file. -/
inductive Opened where
  | sink (s : Sink)
  /-- The file or its directory cannot be made; the log goes without it. -/
  | refused (e : DiskError)
  /-- The log cannot be set up. -/
  | failed (f : SetupFault)
deriving Repr

/-- Makes those of the directories that are not there. -/
def makeDirectories (d : Disk) : List String → Disk × Option Opened
  | [] => (d, none)
  | p :: ps =>
    if (d.find? p).isSome then makeDirectories d ps
    else if p.toList.contains '\x00' then (d, some (.failed .nulInPath))
    else match d.makeDirectory p with
      | .ok d => makeDirectories d ps
      | .error e => (d, some (.refused e))

/-- The path of a log file; unlike other paths it may also be given by the bytes of a text. -/
def logFileName : Value → Except Failure String
  | .bytes bs | .pathLike (.bytes bs) _ =>
    match String.fromUTF8? ⟨bs.toArray⟩ with
    | some name => .ok name
    | none => Path.ofValue (.bytes bs)
  | v => Path.ofValue v

/-- A path on the disk as a value of the same kind as the one that a log file is given by. -/
def pathInKindOf (logFile : Value) (path : String) : Value :=
  match logFile with
  | .bytes _ | .pathLike (.bytes _) _ => .bytes path.toUTF8.toList
  | _ => .text path

/-- Makes the directory of a log file if need be, reads the limits, and opens the file, unless that
    stage breaks down. -/
def openLogFile (d : Disk) (cfg : Config) (level : Int) (broken : Option Breakdown) :
    Disk × Opened :=
  match logFileName cfg.logFile with
  | .error f => (d, .failed (.path f))
  | .ok name =>
    let path := d.absolute name
    let isOutput := d.device? path = some .output
    let above := (Path.cutLast path).1
    let ancestors := if (d.find? above).isSome then [] else Disk.lineage above
    match makeDirectories d ancestors with
    | (d, some trouble) => (d, trouble)
    | (d, none) => match cfg.maxBytes.toInt, cfg.backupCount.toInt with
      | .error e, _ | .ok _, .error e => (d, .failed (.limit e))
      | .ok maxBytes, .ok backups => match SetupFault.at? broken .file with
        | some f => (d, .failed f)
        | none =>
          if path.toList.contains '\x00' then (d, .failed .nulInPath)
          else match d.openFile path with
            | .ok d =>
              let shownPath := (pathInKindOf cfg.logFile path).shown
              (d, .sink (.file level path shownPath maxBytes backups isOutput))
            | .error e => (d, .refused e)

/-! ## The listener -/

/-- The listener: its sinks, the records that wait to be written, and whether it runs. -/
structure Listener where
  sinks : List Sink
  pending : List Record
  running : Bool
deriving Repr, DecidableEq

namespace Listener

/-- A listener that has just been started. -/
def start (sinks : List Sink) : Listener := ⟨sinks, [], true⟩

/-- Queues a record. -/
def enqueue (l : Listener) (r : Record) : Listener := { l with pending := l.pending ++ [r] }

/-- Writes the records that wait, each to all sinks in their order. -/
def drain (l : Listener) (o : Outlets) : Outlets :=
  l.pending.foldl (fun o r => l.sinks.foldl (fun o s => s.write o r) o) o

/-- Stops a running listener once the records that wait are written. -/
def stop (l : Listener) (o : Outlets) : Listener × Outlets :=
  if l.running then ({ l with pending := [], running := false }, l.drain o) else (l, o)

theorem drain_enqueue (l : Listener) (r : Record) (o : Outlets) :
    (l.enqueue r).drain o = l.sinks.foldl (fun o s => s.write o r) (l.drain o) := by
  simp [drain, enqueue]

theorem stop_stop (l : Listener) (o : Outlets) :
    (l.stop o).1.stop (l.stop o).2 = l.stop o := by
  by_cases h : l.running <;> simp [stop, h]

end Listener

end DirGlob.Log
