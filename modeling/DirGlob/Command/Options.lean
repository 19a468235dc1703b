import DirGlob.Text.Digit
import DirGlob.Text.Quoted
import DirGlob.Value

set_option autoImplicit false

/-! # Options of the command line

The command line is one pattern and any number of options. An option can be shortened as long as it
is clear which one is meant, and its value stands after it or, behind `=`, in the same argument.
After the first `--` nothing is an option.

The arguments are read in two passes. The first one classifies each argument by itself: as an
option, as something that looks like an option and is none, or as a plain argument. The second one
takes the options with their values and the pattern, and collects what is left. -/

namespace DirGlob.Command

/-! ## The options -/

/-- An option. -/
inductive Flag where
  | help
  | cwd
  | sort
  | json
  | debug
  | logFile
deriving Repr, DecidableEq

namespace Flag

/-- Whether a value belongs to the option. -/
def takesValue : Flag → Bool
  | cwd | logFile => true
  | help | sort | json | debug => false

/-- The option as messages name it, with all its spellings. -/
def shown : Flag → String
  | help => "-h/--help"
  | cwd => "--cwd"
  | sort => "--sort"
  | json => "--json"
  | debug => "--debug"
  | logFile => "--log-file"

/-- The spellings that stand for options. -/
def spellings : List (String × Flag) :=
  [("-h", help), ("--help", help), ("--cwd", cwd), ("--sort", sort), ("--json", json),
    ("--debug", debug), ("--log-file", logFile)]

/-- The option with exactly this spelling. -/
def ofSpelling? (s : String) : Option Flag := spellings.lookup s

end Flag

/-- What is wrong with a command line. -/
inductive UsageError where
  /-- An argument that could be short for several options. -/
  | ambiguous (argument : String) (spellings : List String)
  /-- An option without its value. -/
  | missingValue (flag : Flag)
  /-- An option with a value that it cannot have. -/
  | unwantedValue (flag : Flag) (value : String)
  | missingPattern
  | unrecognized (arguments : List String)
deriving Repr, DecidableEq

/-- The text of the error. -/
def UsageError.message : UsageError → String
  | .ambiguous argument spellings =>
    "ambiguous option: " ++ argument ++ " could match " ++ ", ".intercalate spellings
  | .missingValue flag => "argument " ++ flag.shown ++ ": expected one argument"
  | .unwantedValue flag value =>
    "argument " ++ flag.shown ++ ": ignored explicit argument " ++ Text.quoted value
  | .missingPattern => "the following arguments are required: pattern"
  | .unrecognized arguments => "unrecognized arguments: " ++ " ".intercalate arguments

/-! ## Classifying arguments -/

/-- What an argument looks like. -/
inductive Argument where
  | plain (text : String)
  /-- The first `--`. -/
  | divider
  | option (flag : Flag)
  /-- An option with a value in the same argument, behind an equals sign. -/
  | assigned (flag : Flag) (value : String)
  /-- The short option for help, with more behind it in the same argument, perhaps after an equals
      sign. -/
  | cluster (rest : List Char)
  /-- An argument that looks like an option and is none. -/
  | unknown (text : String)
deriving Repr, DecidableEq

/-- Cuts a text at the first equals sign, if it has one. -/
def cutAtEquals (s : List Char) : List Char × Option (List Char) :=
  match s.dropWhile (· ≠ '=') with
  | [] => (s, none)
  | _ :: value => (s.takeWhile (· ≠ '='), some value)

/-- Whether a text is a negative number: digits, perhaps with a point among or before them. A
    newline at the end does not count. -/
def isNegativeNumber (s : List Char) : Bool :=
  let s := if s.getLast? = some '\n' then s.dropLast else s
  match s with
  | '-' :: cs =>
    let isDigits (ds : List Char) : Bool := !ds.isEmpty && ds.all Text.isDecimal
    isDigits cs || match cs.dropWhile Text.isDecimal with
      | '.' :: ds => isDigits ds
      | _ => false
  | _ => false

/-- An argument that begins with two dashes, as a shortened option. -/
def shortened (text : String) : Except UsageError (Option Argument) :=
  let (start, value) := cutAtEquals text.toList
  match Flag.spellings.filter fun e => start.isPrefixOf e.1.toList with
  | [] => .ok none
  | [(_, flag)] => .ok (match value with
    | none => some (.option flag)
    | some value => some (.assigned flag (String.ofList value)))
  | several => .error (.ambiguous text (several.map Prod.fst))

/-- An argument that begins with a dash and is no option as it stands. -/
def dashed (text : String) : Except UsageError Argument := do
  let found ← match text.toList with
    | '-' :: '-' :: _ => shortened text
    | '-' :: 'h' :: rest => .ok (some (.cluster rest))
    | _ => .ok none
  return match found with
    | some argument => argument
    | none =>
      if isNegativeNumber text.toList || text.toList.contains ' ' then .plain text
      else .unknown text

/-- Classifies an argument. -/
def classify (text : String) : Except UsageError Argument :=
  match text.toList with
  | '-' :: _ :: _ =>
    match Flag.ofSpelling? text with
    | some flag => .ok (.option flag)
    | none =>
      match cutAtEquals text.toList with
      | (['-', 'h'], some value) => .ok (.cluster value)
      | (start, some value) => match Flag.ofSpelling? (String.ofList start) with
        | some flag => .ok (.assigned flag (String.ofList value))
        | none => dashed text
      | (_, none) => dashed text
  | _ => .ok (.plain text)

/-- Classifies all arguments. -/
def classifyAll : List String → Except UsageError (List Argument)
  | [] => .ok []
  | "--" :: rest => .ok (.divider :: rest.map .plain)
  | text :: rest => do
    let argument ← classify text
    return argument :: (← classifyAll rest)

/-! ## Taking arguments -/

/-- What was given for an option that has a value. -/
inductive Given where
  | nothing
  | text (s : String)
  /-- The two dashes of a divider, which are taken away, so that there is no text left. -/
  | divider
deriving Repr, DecidableEq

/-- What stands behind the equals sign of an option. -/
def Given.ofAssigned (value : String) : Given := if value = "--" then .divider else .text value

/-- The value that an option gives to a setting. -/
def Given.toValue : Given → Value
  | .nothing => .null
  | .text s => .text s
  | .divider => .list []

/-- The options that were given, and the pattern. -/
structure Options where
  pattern : String
  cwd : Given
  sort : Bool
  json : Bool
  debug : Bool
  logFile : Given
deriving Repr, DecidableEq

/-- What has been taken from a command line so far. -/
structure Taken where
  pattern : Option String
  options : Options
  extras : List String
deriving Repr, DecidableEq

/-- Nothing. -/
def Taken.none : Taken := ⟨.none, ⟨"", .nothing, false, false, false, .nothing⟩, []⟩

/-- How reading a command line ends. -/
inductive Outcome where
  | run (options : Options)
  | help
  | refused (e : UsageError)
deriving Repr, DecidableEq

namespace Taken

/-- Sets an option that has no value. -/
def set (t : Taken) : Flag → Taken
  | .sort => { t with options := { t.options with sort := true } }
  | .json => { t with options := { t.options with json := true } }
  | .debug => { t with options := { t.options with debug := true } }
  | .help | .cwd | .logFile => t

/-- Sets an option that has a value. -/
def assign (t : Taken) (flag : Flag) (given : Given) : Taken :=
  match flag with
  | .cwd => { t with options := { t.options with cwd := given } }
  | .logFile => { t with options := { t.options with logFile := given } }
  | .help | .sort | .json | .debug => t

/-- Puts an argument aside that nothing can be done with. -/
def addExtra (t : Taken) (text : String) : Taken := { t with extras := t.extras ++ [text] }

/-- Takes a plain argument as the pattern, or puts it aside if there is one. -/
def takePlain (t : Taken) (text : String) : Taken :=
  match t.pattern with
  | .none => { t with pattern := some text }
  | some _ => t.addExtra text

/-- What comes of everything that was taken. -/
def finish (t : Taken) : Outcome :=
  match t.pattern, t.extras with
  | .none, _ => .refused .missingPattern
  | some pattern, [] => .run { t.options with pattern }
  | some _, extras => .refused (.unrecognized extras)

end Taken

/-- What comes of the short option for help with more behind it: more of the same is help, and
    anything else is a value that the option cannot have. -/
def clusterOutcome : List Char → Outcome
  | ['h'] => .help
  | 'h' :: rest => clusterOutcome rest
  | value => .refused (.unwantedValue .help (String.ofList value))

/-- Takes classified arguments one after the other. A divider belongs to the pattern, if that stands
    next to it. -/
def takeAll (t : Taken) : List Argument → Outcome
  | [] => t.finish
  | .plain text :: .divider :: rest =>
    match t.pattern with
    | none => takeAll (t.takePlain text) rest
    | some _ => takeAll ((t.takePlain text).addExtra "--") rest
  | .plain text :: rest => takeAll (t.takePlain text) rest
  | .divider :: .plain text :: rest =>
    match t.pattern with
    | none => takeAll (t.takePlain text) rest
    | some _ => takeAll ((t.addExtra "--").takePlain text) rest
  | .divider :: rest => takeAll (t.addExtra "--") rest
  | .unknown text :: rest => takeAll (t.addExtra text) rest
  | .cluster cs :: _ => clusterOutcome cs
  | .assigned flag value :: rest =>
    if flag.takesValue then takeAll (t.assign flag (.ofAssigned value)) rest
    else .refused (.unwantedValue flag value)
  | .option flag :: rest =>
    if flag = .help then .help
    else if flag.takesValue then
      match rest with
      | .plain value :: rest => takeAll (t.assign flag (.text value)) rest
      | _ => .refused (.missingValue flag)
    else takeAll (t.set flag) rest

/-- Reads a command line. -/
def parse (arguments : List String) : Outcome :=
  match classifyAll arguments with
  | .ok classified => takeAll .none classified
  | .error e => .refused e

/-- The settings that the options ask for. -/
def Options.overrides (o : Options) : List (String × Value) :=
  [("cwd", o.cwd.toValue), ("log_file", o.logFile.toValue)] ++
    (if o.sort then [("sort_results", .bool true)] else []) ++
    (if o.json then [("json_output", .bool true)] else []) ++
    (if o.debug then [("log_level", .text "DEBUG")] else [])

end DirGlob.Command
