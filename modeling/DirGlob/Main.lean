import DirGlob.Command.Supervisor
import DirGlob.Tree.Insert
import Std.Time.Format
import Std.Time.Zoned

set_option autoImplicit false

/-! # The program

The program reads what a run can look at (the directories on the way to the one that is listed, the
names in that one, and the log files), runs the command line on it, and writes what came of it. -/

namespace DirGlob.Program

/-! ## What a run looks at -/

/-- The settings of a run in this working directory. -/
def settingsOf (cwd : String) (options : Command.Options) : Settings :=
  let given := Settings.mergeEntries (Settings.defaults cwd).toEntries options.overrides
  match Settings.check .lenient cwd (.dict given) with
  | .ok checked => checked.settings
  | .error _ => .defaults cwd

/-- The directory that a run lists. -/
def directoryOf (cwd : String) (options : Command.Options) : String :=
  let base := (settingsOf cwd options).cwd
  WorkDir.resolveFrom (Path.join cwd base) (GlobTarget.ofPattern options.pattern).directory []

/-- The names along a path. -/
def namesOf (path : String) : List String :=
  (Path.steps path).filter fun name => name ≠ "" ∧ name ≠ "."

/-- The path that has these names along it. -/
def pathOf (names : List String) : String := "/" ++ "/".intercalate names

/-! ## Reading -/

/-- The path without links of what a path leads to, if it leads to something. -/
def realPath? (path : String) : IO (Option String) := do
  try return some (← IO.FS.realPath path).toString
  catch _ => return none

/-- Whether a path leads to a directory. -/
def isDirectory (path : String) : IO Bool := do (← IO.FS.realPath path).isDir

/-- Adds the directories along a path to a tree, and the links that it goes through, each leading
    to where it ends. Answers where the path leads. -/
def readWay (root : Node) (place : List String) : List String → IO (Node × Option (List String))
  | [] => return (root, some place)
  | ".." :: rest => readWay root place.dropLast rest
  | name :: rest => do
    let here := place ++ [name]
    match ← realPath? (pathOf here) with
    | none => return (root, none)
    | some found =>
      let there := namesOf found
      let root := if there = here then root else root.insert here (.link found)
      if ← isDirectory found then readWay (root.update id there) there rest
      else return (root.insert there .file, none)

/-- The node at the end of a path: a directory with the names of its entries, or a file. -/
def readEnd (node : Node) (path : String) : IO Node := do
  if ← isDirectory path then
    try
      let entries ← (← IO.FS.realPath path).readDir
      return node.withNames (entries.toList.map (·.fileName))
    catch
      | .permissionDenied .. => return .faulty .permissionDenied
      | _ => return .faulty .inputOutput
  else return .file

/-- The part of the directory tree that listing a directory needs. -/
def readTree (directory : String) : IO Tree := do
  let (root, place) ← readWay (.directory []) [] (namesOf directory)
  match place with
  | none => return .ofRoot root
  | some names =>
    let node? := names.foldlM (fun (node : Node) name => node.entry? name) root
    let node ← readEnd (node?.getD (.directory [])) (pathOf names)
    return .ofRoot (root.insert names node)

/-- Adds what a path leads to to the disk; of a file that cannot be read, only that it is there.
    Devices are known. -/
def readEntry (disk : Log.Disk) (path : String) : IO Log.Disk := do
  if (disk.device? path).isSome then return disk
  match ← realPath? path with
  | none => return disk
  | some found =>
    if ← isDirectory found then return disk.put path .directory
    else
      let text ← try IO.FS.readFile path catch _ => pure ""
      return disk.put path (.file text)

/-- The part of the disk that logging to a file needs. -/
def readDisk (home logFile : String) : IO Log.Disk := do
  let disk := (Log.Disk.empty home).withSystem
  if logFile = "" then return disk
  let path := disk.absolute logFile
  (Log.Disk.lineage path ++ [Log.Sink.olderPath path 1, Log.Sink.olderPath path 2]).foldlM
    readEntry disk

/-- The nearest directory that is there, on paths that lead up, and the names along its path without
    links. -/
def readStart : List String → IO (String × List String)
  | [] => return ("/", [])
  | path :: above => do
    match ← realPath? path with
    | none => readStart above
    | some found =>
      if ← isDirectory found then return (path, namesOf found) else readStart above

/-- The time, as records show it. -/
def readTime : IO String :=
  return (← Std.Time.PlainDateTime.now).format "uuuu-MM-dd HH:mm:ss"

/-! ## Log files in the tree -/

/-- Adds something that the log has made below a directory, of which the names along the path without
    links are given. What cannot be listed stays as it is. -/
def addMade (start : String × List String) (tree : Tree) (made : String × Log.DiskEntry) : Tree :=
  let above := namesOf start.1
  let names := namesOf made.1
  if above.isPrefixOf names then
    let place := start.2 ++ names.drop above.length
    let root := Node.directory tree.entries
    match (tree.lookup? true (pathOf place.dropLast)).map Place.node, made.2 with
    | some (.faulty _), _ => tree
    | _, .directory | _, .closed => .ofRoot (root.update id place)
    | _, .file _ | _, .device .. => .ofRoot (root.insert place .file)
  else tree

/-- The tree once the log has made something of its disk, all of it below a directory that was there
    before. -/
def treeWith (tree : Tree) (before : Log.Disk) (start : String × List String)
    (after : Log.Disk) : Tree :=
  (after.entries.reverse.filter fun e => (before.find? e.1).isNone).foldl (addMade start) tree

/-! ## Writing -/

/-- Writes to a device. -/
def writeDevice (text : String) : Log.Device → IO Unit
  | .output => do (← IO.getStdout).putStr text
  | .errors => do (← IO.getStderr).putStr text
  | .null => return ()

/-- Writes what a run made of an entry of the disk. Text at the end of a file is appended. -/
def writeEntry (before : Log.Disk) (entry : String × Log.DiskEntry) : IO Unit := do
  let (path, entry) := entry
  match entry with
  | .directory | .closed => if (before.find? path).isNone then IO.FS.createDirAll path
  | .file text =>
    let old := before.textOf path
    if old.isPrefixOf text then
      let handle ← IO.FS.Handle.mk path .append
      handle.putStr (text.drop old.length).toString
    else IO.FS.writeFile path text
  | .device device text => writeDevice (text.drop (before.textOf path).length).toString device

/-- Writes what a run left behind. -/
def writeWorld (before : Log.Disk) (w : World) : IO Unit := do
  for entry in w.hub.outlets.disk.entries.reverse do
    if before.find? entry.1 ≠ some entry.2 then writeEntry before entry
  (← IO.getStderr).putStr (w.hub.outlets.console ++ w.hub.errors)
  (← IO.getStdout).putStr w.output.text

end DirGlob.Program

open DirGlob in
/-- Runs the command line. -/
def main (arguments : List String) : IO UInt32 := do
  let home := (← IO.FS.realPath ".").toString
  let (tree, disk, start) ← match Command.parse arguments with
    | .run options =>
      let disk ← Program.readDisk home (Program.settingsOf home options).logFile
      let logFile := disk.absolute (Program.settingsOf home options).logFile
      pure (← Program.readTree (Program.directoryOf home options), disk,
        ← Program.readStart (Log.Disk.lineage logFile).reverse)
    | _ => pure (⟨[]⟩, Log.Disk.empty home, ("/", []))
  let world := { World.start tree home disk (← Program.readTime) none with
    treeWith := Program.treeWith tree disk start }
  let (result, world) := (Command.supervise arguments).run world
  Program.writeWorld disk { world with hub := world.hub.shutdown, calm := world.calm.shutdown }
  match result with
  | .ok (.code n) | .ok (.early n) => return n.toUInt32
  | .error _ => return 1
