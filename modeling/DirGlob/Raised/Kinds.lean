import DirGlob.Raised.Coding
import DirGlob.Raised.Grammar
import DirGlob.Raised.Place
import DirGlob.Raised.System

set_option autoImplicit false

/-! # Kinds of errors

An error that was raised elsewhere is known by its kind and its arguments. Its kind decides how many
arguments there may be and what is shown of them. -/

namespace DirGlob.Raised

/-- What is wrong with the arguments of a group of errors: no value is an error. -/
def groupFault : List Value → Unfit
  | [.text _, members] => match members with
    | .list [] | .tuple [] | .bytes [] | .text "" => .noMembers
    | .list _ | .tuple _ | .bytes _ | .text _ => .notAnError
    | _ => .noSequence
  | [v, _] => .notText (some groupMaker) 1 (nonTextKind v)
  | vs => .count (some groupMaker) (.exactly 2) vs.length
where
  /-- What makes a group. -/
  groupMaker : String := "BaseExceptionGroup.__new__()"

/-- The error of a kind that has these arguments. -/
def ofArguments (kind : String) (arguments : List Value) : Except Failure Raised :=
  match kind with
  | "KeyError" => .ok (missingKey arguments)
  | "DirectoryNotFound" => (missingDirectory arguments).mapError .unfit
  | "FsGlobError" => .ok (plain (home ++ kind) arguments)
  | "re.error" => expression arguments
  | "SyntaxError" | "IndentationError" | "TabError" => grammar kind arguments
  | "UnicodeDecodeError" => decoding arguments
  | "UnicodeEncodeError" => (encoding arguments).mapError .unfit
  | "UnicodeTranslateError" => (mapping arguments).mapError .unfit
  | "ExceptionGroup" | "BaseExceptionGroup" => .error (.unfit (groupFault arguments))
  | _ =>
    if SystemReport.isName kind then (system kind arguments).mapError .unfit
    else .ok (plain kind arguments)

end DirGlob.Raised
