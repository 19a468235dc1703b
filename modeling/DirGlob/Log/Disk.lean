import DirGlob.Path.Join
import DirGlob.Path.Normalize

set_option autoImplicit false

/-! # Where log files are kept

The disk of the log is what setting up the log and writing to it have to do with: files, directories
and devices. They are known by their absolute paths in normal form; a relative path starts at the home
directory. Two separators at the start of a path lead where one does, but complaints show the path as
it is. Of the tree that patterns are matched in the disk knows nothing; whether the two have to do
with each other is a matter of the world (`World.treeWith`).

A log file can be a device, among them the standard output of the program. -/

namespace DirGlob.Log

/-- Why a file or a directory cannot be made. -/
inductive DiskError where
  | notADirectory (path : String)
  | isADirectory (path : String)
  | nameTooLong (path : String)
  /-- Something that is not there and cannot be made. -/
  | missing (path : String)
deriving Repr, DecidableEq

/-- The text of the error, with the path as `spell` writes it. -/
def DiskError.message (spell : String → String) : DiskError → String
  | .notADirectory path => "[Errno 20] Not a directory: " ++ spell path
  | .isADirectory path => "[Errno 21] Is a directory: " ++ spell path
  | .nameTooLong path => "[Errno 36] File name too long: " ++ spell path
  | .missing path => "[Errno 2] No such file or directory: " ++ spell path

/-- A device that can be written to. -/
inductive Device where
  /-- The standard output of the program. -/
  | output
  /-- The error stream of the program. -/
  | errors
  /-- Whatever is written to it is gone. -/
  | null
deriving Repr, DecidableEq, Inhabited

/-- What a path on the disk leads to. -/
inductive DiskEntry where
  | directory
  /-- A directory in which nothing can be made. -/
  | closed
  | file (text : String)
  /-- A device, and what the log has written to it by this path. The device itself keeps nothing. -/
  | device (device : Device) (written : String)
deriving Repr, DecidableEq, Inhabited

/-- The files and directories of the disk, and the directory where relative paths start. -/
structure Disk where
  home : String
  entries : List (String × DiskEntry)
deriving Repr, DecidableEq, Inhabited

namespace Disk

/-- A path and the directories above it, the root first. -/
def lineage (path : String) : List String :=
  let root := String.ofList (Path.leadingSeparators path.toList)
  let names := ((Path.pieces '/' path.toList).filter (· ≠ [])).map String.ofList
  (List.range (names.length + 1)).map fun n => root ++ "/".intercalate (names.take n)

/-- The path with one separator at its start, under which entries are kept. -/
def key (path : String) : String :=
  match path.toList with
  | '/' :: '/' :: cs => String.ofList ('/' :: cs)
  | _ => path

/-- What the path leads to. -/
def find? (d : Disk) (path : String) : Option DiskEntry := d.entries.lookup (key path)

/-- Puts something on the disk, in the place of what is there. -/
def put (d : Disk) (path : String) (e : DiskEntry) : Disk :=
  { d with entries := (key path, e) :: d.entries.filter (·.1 ≠ key path) }

/-- Takes something from the disk. -/
def remove (d : Disk) (path : String) : Disk :=
  { d with entries := d.entries.filter (·.1 ≠ key path) }

/-- A disk with nothing on it but the home directory. -/
def empty (home : String) : Disk := ⟨home, (lineage home).map (·, .directory)⟩

/-- The directories that every system has. -/
def systemDirectories : List String :=
  ["/bin", "/boot", "/dev", "/dev/fd", "/etc", "/home", "/lib", "/media", "/mnt", "/opt", "/root",
    "/run", "/sbin", "/srv", "/sys", "/tmp", "/usr", "/usr/bin", "/usr/lib", "/usr/local", "/var",
    "/var/log", "/var/tmp"]

/-- The directories of every system in which nothing can be made. -/
def closedDirectories : List String := ["/proc", "/proc/self", "/proc/self/fd"]

/-- The paths that lead to devices. -/
def devices : List (String × Device) :=
  [("/dev/null", .null), ("/dev/stdout", .output), ("/dev/fd/1", .output),
    ("/proc/self/fd/1", .output), ("/dev/stderr", .errors), ("/dev/fd/2", .errors),
    ("/proc/self/fd/2", .errors)]

/-- Adds the directories and the devices of every system behind what is there. -/
def withSystem (d : Disk) : Disk :=
  { d with
    entries := d.entries ++ systemDirectories.map (·, .directory) ++
      closedDirectories.map (·, .closed) ++ devices.map fun e => (e.1, .device e.2 "") }

/-- The disk of a system: its directories and devices, a file that is always there, and the home
    directory. -/
def ofSystem (home : String) : Disk := (withSystem (empty home)).put "/etc/passwd" (.file "")

/-- The absolute path in normal form. -/
def absolute (d : Disk) (path : String) : String := Path.normalize (Path.join d.home path)

/-- Checks that something can be made in the directory above the path. -/
def checkPlace (d : Disk) (path : String) : Except DiskError Unit :=
  let (above, name) := Path.cutLast path
  match d.find? above with
  | some (.file _) | some (.device ..) => .error (.notADirectory path)
  | some .closed => .error (.missing path)
  | _ => if name.utf8ByteSize > 255 then .error (.nameTooLong path) else .ok ()

/-- Makes a directory. -/
def makeDirectory (d : Disk) (path : String) : Except DiskError Disk :=
  (d.checkPlace path).map fun _ => d.put path .directory

/-- Opens a file or a device for appending, and makes an empty file if there is nothing. -/
def openFile (d : Disk) (path : String) : Except DiskError Disk :=
  match d.find? path with
  | some .directory | some .closed => .error (.isADirectory path)
  | some (.file _) | some (.device ..) => .ok d
  | none => (d.checkPlace path).map fun _ => d.put path (.file "")

/-- The device that the path leads to, if it leads to one. -/
def device? (d : Disk) (path : String) : Option Device :=
  match d.find? path with
  | some (.device device _) => some device
  | _ => none

/-- The text of a file, or what was written to a device; where there is neither there is none. -/
def textOf (d : Disk) (path : String) : String :=
  match d.find? path with
  | some (.file text) | some (.device _ text) => text
  | _ => ""

/-- Appends to a file, or writes to a device. -/
def append (d : Disk) (path text : String) : Disk :=
  let text := d.textOf path ++ text
  d.put path (match d.device? path with
    | some device => .device device text
    | none => .file text)

/-- Where a path leads after `source` was moved to `target`: what stood under it goes with it. -/
def movedPath (source target path : String) : String :=
  if path = source then target
  else if (source ++ "/").toList.isPrefixOf path.toList then
    target ++ String.ofList (path.toList.drop source.length)
  else path

/-- Moves a file or a directory, if it is there, to the place of another one. -/
def move (d : Disk) (source target : String) : Disk :=
  if (d.find? source).isNone then d
  else
    let kept := (d.remove target).entries
    { d with entries := kept.map fun e => (movedPath (key source) (key target) e.1, e.2) }

/-- The files under the home directory, by their paths from there. -/
def files (d : Disk) : List (String × String) :=
  let start := (d.home ++ "/").toList
  d.entries.filterMap fun (path, e) => match e with
    | .file text =>
      if start.isPrefixOf path.toList then
        some (String.ofList (path.toList.drop start.length), text)
      else none
    | .directory | .closed | .device .. => none

end Disk

end DirGlob.Log
