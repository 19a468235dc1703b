import DirGlob.Raised.Basic

set_option autoImplicit false

/-! # Errors of the operating system

An error of the operating system has a number, a text, and up to two files that it is about. The
general name of these errors gives way to the name that goes with the number, if there is one. With
fewer or more arguments than these an error of the operating system is an error like any other.

The error of an operation that would have to wait is about no file if a number stands in its place:
the number says how many characters were written. -/

namespace DirGlob

/-- What an error of the operating system says. A file is nothing if there is none. -/
structure SystemReport where
  number : Value
  text : Value
  file : Value := .null
  other : Value := .null
deriving Repr

namespace SystemReport

/-- The names of errors of the operating system by their numbers. -/
def names : List (Int × String) :=
  [(1, "PermissionError"), (2, "FileNotFoundError"), (3, "ProcessLookupError"),
    (4, "InterruptedError"), (10, "ChildProcessError"), (11, "BlockingIOError"),
    (13, "PermissionError"), (17, "FileExistsError"), (20, "NotADirectoryError"),
    (21, "IsADirectoryError"), (32, "BrokenPipeError"), (103, "ConnectionAbortedError"),
    (104, "ConnectionResetError"), (108, "BrokenPipeError"), (110, "TimeoutError"),
    (111, "ConnectionRefusedError"), (114, "BlockingIOError"), (115, "BlockingIOError")]

/-- The name that stands for all errors of the operating system. -/
def generalName : String := "OSError"

/-- The general name and its other spellings. -/
def generalNames : List String := [generalName, "IOError", "EnvironmentError"]

/-- Whether the name is one of an error of the operating system. -/
def isName (name : String) : Bool :=
  generalNames.contains name || name = "ConnectionError" || (names.map Prod.snd).contains name

/-- Reads a report from the arguments of an error; the fourth one means nothing. -/
def ofArguments? : List Value → Option SystemReport
  | [number, text] => some { number, text }
  | [number, text, file] | [number, text, file, _] => some { number, text, file }
  | [number, text, file, _, other] => some { number, text, file, other }
  | _ => none

/-- The name of an error with this report: the name that was asked for, unless that is general and
    the number has a name of its own. -/
def nameFor (r : SystemReport) (name : String) : String :=
  if generalNames.contains name then
    (r.number.whole?.bind fun n => names.lookup n).getD generalName
  else name

/-- The report without a number of characters in the place of a file. -/
def withoutCount (r : SystemReport) : Except Unfit SystemReport :=
  match r.file.whole?, r.file with
  | some n, _ => if Integer.fits64 n then .ok { r with file := .null } else .error .outOfRange
  | none, .float x => .error (.notInteger (Value.float x).kind)
  | none, _ => .ok r

/-- The text of an error with this report. -/
def message (r : SystemReport) : String :=
  let head := "[Errno " ++ r.number.shown ++ "] " ++ r.text.shown
  match r.file, r.other with
  | .null, _ => head
  | file, .null => head ++ ": " ++ file.written
  | file, other => head ++ ": " ++ file.written ++ " -> " ++ other.written

end SystemReport

/-- An error of the operating system. -/
def Raised.system (name : String) (arguments : List Value) : Except Unfit Raised :=
  match SystemReport.ofArguments? arguments with
  | none =>
    let isGeneral := SystemReport.generalNames.contains name
    .ok (plain (if isGeneral then SystemReport.generalName else name) arguments)
  | some r => do
    let name := r.nameFor name
    let r ← if name = "BlockingIOError" then r.withoutCount else .ok r
    return { name, text := r.message }

end DirGlob
