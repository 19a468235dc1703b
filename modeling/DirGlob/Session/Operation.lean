import DirGlob.Command.Run

set_option autoImplicit false

/-! # Operations by name

Every operation of the library as a value, with its arguments, and every kind of result. -/

namespace DirGlob

/-- The version of the library. -/
def version : String := "0.1.0"

/-- An operation with its arguments. -/
inductive Operation where
  | constants
  | split (path : Value)
  | joinComponents (components : Path.Components)
  | regexText (pattern : String)
  | compile (pattern : String)
  | compileAll (patterns : List String)
  | matchNames (pattern : String) (names : List String)
  | cacheState
  | pathText (path : Value)
  | joinPath (base : Value) (parts : List Value)
  | canonicalPath (path : Value)
  | list (directory : Value)
  | workingDirectory
  | resolve (path : Value) (more : List Value) (cwd : Value)
  | glob (pattern cwd : Value)
  | globIn (root pattern cwd : Value)
  | defaultSettings
  | checkSettings (mode : Settings.Mode) (settings : Value)
  | mergeSettings (base overrides : Value)
  | logSetup (settings : Value)
  | levelNumber (level : Value)
  | missingDirectory (path : Value)
  | readCommandLine (arguments : List String)
deriving Repr

/-- The result of an operation. -/
inductive Reply where
  | constants
  | text (s : String)
  | texts (l : List String)
  | flag (b : Bool)
  | flags (l : List Bool)
  | number (n : Int)
  | components (c : Path.Components)
  | matcher (m : Pattern.Matcher)
  | cache (c : Pattern.Cache)
  | entries (l : List Tree.Entry)
  | settings (s : Settings)
  | checked (c : Settings.Checked)
  | value (v : Value)
  | setup (c : Log.Config)
  | commandLine (o : Command.Outcome)
  | missingDirectory (path : Value)
deriving Repr

namespace Operation

open DirGlob.Action in
/-- Runs an operation. -/
def run : Operation → Action Reply
  | constants => return .constants
  | split path => return .components (.ofPath (← ofResult (Path.ofValue path)))
  | joinComponents components => return .text components.toPath
  | regexText pattern => return .text (Pattern.regexText pattern)
  | compile pattern => return .matcher (← Action.compile pattern)
  | compileAll patterns => do
    for pattern in patterns do
      discard (Action.compile pattern)
    return .cache (← get).cache
  | matchNames pattern names => return .flags (names.map (← Action.compile pattern).matches?)
  | cacheState => return .cache (← get).cache
  | pathText path => return .text (← ofResult (Path.ofValue path))
  | joinPath base parts => return .text (← ofResult (Path.joinValues base parts))
  | canonicalPath path => do
    let path ← ofResult (Path.ofValue path)
    return .text (← ofResult ((← get).tree.canonical path))
  | list directory => return .entries (← Action.list (← ofResult (Path.ofValue directory)))
  | workingDirectory => return .text (← get).cwd
  | resolve path more cwd => return .text (← Action.resolve path more cwd)
  | glob pattern cwd => return .texts (← Action.glob pattern cwd)
  | globIn root pattern cwd => return .texts (← Action.globIn root pattern cwd)
  | defaultSettings => return .settings (← Action.defaultSettings)
  | checkSettings mode settings => return .checked (← Action.checkSettings mode settings)
  | mergeSettings base overrides => return .value (← ofResult (Settings.merge base overrides))
  | logSetup settings => return .setup (← ofResult (Log.Config.ofSettings settings))
  | levelNumber level => return .number (← ofResult (Log.Level.ofValue level)).number
  | missingDirectory path => do
    discard (ofResult path.toText)
    return .missingDirectory path
  | readCommandLine arguments => return .commandLine (Command.parse arguments)

end Operation

end DirGlob
