import DirGlob.Raised.Unfit
import DirGlob.Regex.Reader
import DirGlob.Settings.Complaint

set_option autoImplicit false

/-! # What can go wrong

The causes of failure, with the text and the name of each. A report of a failure consists of both;
a name tells callers which kind of failure it is. -/

namespace DirGlob

/-- Why a directory cannot be listed although it is there. -/
inductive ListingFault where
  | permissionDenied
  | inputOutput
  | broken
  | interrupted
deriving Repr, DecidableEq, Inhabited

/-- Why an operation failed. -/
inductive Failure where
  /-- A value of a kind that is no path. -/
  | notAPath (kind : String)
  /-- An object gave a value of a kind that is no path. -/
  | givesNoPath (kind : String)
  /-- A path of bytes, in its written spelling. -/
  | bytePath (written : String)
  /-- A path that holds a NUL and was to be looked up. -/
  | nulInPath
  /-- A path whose links lead on without end. -/
  | endlessLinks
  | directoryNotFound (path : Value)
  /-- A pattern whose regular expression is malformed. -/
  | badPattern (e : Regex.Malformed)
  | listing (fault : ListingFault) (directory : String)
  /-- Settings that a strict check refuses. -/
  | settings (complaint : Complaint)
  /-- A value without members in the place of entries. -/
  | notIterable (kind : String)
  /-- A member without members in the place of a pair. -/
  | noPair (index : Nat)
  /-- A member in the place of a pair that has more or less than two members. -/
  | pairSize (index size : Nat)
  /-- A value that can change in the place of a key. -/
  | changeableKey (kind : String)
  /-- A value without members in which a key was looked for. -/
  | noMembers (kind : String)
  /-- A key in a sequence, in which nothing stands under a key. -/
  | keyInList
  | keyInTuple
  | keyInText
  /-- A value of another kind where bytes go together with bytes only. -/
  | bytesWanted (kind : String)
  /-- A value without what was asked of it by this name. -/
  | noMember (kind name : String)
  /-- A value that holds an integer with too many digits was to be shown. -/
  | tooManyDigits
  /-- Arguments that make no error. -/
  | unfit (u : Unfit)
  /-- Writing the output failed. -/
  | output (text : String)
  /-- A scope that was never opened, by its handle. -/
  | unknownHandle (handle : String)
  /-- A scope was to be closed in another context than its own. -/
  | foreignContext
  | noSuchHandler
deriving Repr

namespace Failure

/-- The text of a failure. -/
def message : Failure → String
  | .notAPath kind => "expected str, bytes or os.PathLike object, not " ++ kind
  | .givesNoPath kind => "expected FsPath.__fspath__() to return str or bytes, not " ++ kind
  | .bytePath written => "Byte paths are not supported: " ++ written
  | .nulInPath => "embedded null byte"
  | .endlessLinks => "maximum recursion depth exceeded"
  | .directoryNotFound path => "Directory not found or not listable: '" ++ path.shown ++ "'"
  | .badPattern e => e.message
  | .listing .permissionDenied directory =>
    "[Errno 13] Permission denied: " ++ Text.quoted directory
  | .listing .inputOutput directory => "[Errno 5] Input/output error: " ++ Text.quoted directory
  | .listing .broken _ => "listing failed"
  | .listing .interrupted _ => ""
  | .settings complaint => complaint.text
  | .notIterable kind => "'" ++ kind ++ "' object is not iterable"
  | .noPair index =>
    "cannot convert dictionary update sequence element #" ++ toString index ++ " to a sequence"
  | .pairSize index size =>
    "dictionary update sequence element #" ++ toString index ++ " has length " ++
      toString size ++ "; 2 is required"
  | .changeableKey kind => "unhashable type: '" ++ kind ++ "'"
  | .noMembers kind => "argument of type '" ++ kind ++ "' is not iterable"
  | .keyInList => "list indices must be integers or slices, not str"
  | .keyInTuple => "tuple indices must be integers or slices, not str"
  | .keyInText => "string indices must be integers, not 'str'"
  | .bytesWanted kind => "a bytes-like object is required, not '" ++ kind ++ "'"
  | .noMember kind name => "'" ++ kind ++ "' object has no attribute '" ++ name ++ "'"
  | .tooManyDigits =>
    "Exceeds the limit (" ++ toString Integer.maxDigits ++ " digits) for integer string " ++
      "conversion; use sys.set_int_max_str_digits() to increase the limit"
  | .unfit u => u.message
  | .output text => text
  | .unknownHandle handle => Text.quoted handle
  | .foreignContext => "scope was entered in another context"
  | .noSuchHandler => "list index out of range"

/-- The name of a failure. -/
def name : Failure → String
  | .settings (.unknownLevel _) | .nulInPath | .foreignContext | .pairSize .. | .tooManyDigits =>
    "ValueError"
  | .notAPath _ | .givesNoPath _ | .bytePath _ | .settings _ | .notIterable _ | .noPair _
  | .changeableKey _ | .noMembers _ | .keyInList | .keyInTuple | .keyInText | .bytesWanted _ =>
    "TypeError"
  | .endlessLinks => "RecursionError"
  | .directoryNotFound _ => "DirectoryNotFound"
  | .badPattern _ => "re.error"
  | .listing .permissionDenied _ => "PermissionError"
  | .listing .inputOutput _ | .output _ => "OSError"
  | .listing .broken _ => "RuntimeError"
  | .listing .interrupted _ => "KeyboardInterrupt"
  | .noMember .. => "AttributeError"
  | .unfit u => u.name
  | .unknownHandle _ => "KeyError"
  | .noSuchHandler => "IndexError"

end Failure

/-- The shown spelling of a value, if it can be shown. -/
def Value.toText (v : Value) : Except Failure String :=
  if v.isShowable then .ok v.shown else .error .tooManyDigits

theorem Value.toText_text (s : String) : (Value.text s).toText = .ok s := rfl

end DirGlob
