import DirGlob.Value

set_option autoImplicit false

/-! # Complaints about settings

Settings come from outside and may be of any kind. A complaint says what is wrong with them. A
strict check fails with the first complaint; a lenient one turns each complaint into a warning that
adds what is used instead, and also warns where it reads a number or a word as a switch. -/

namespace DirGlob

/-- What is wrong with settings. -/
inductive Complaint where
  | notADictionary (kind : String)
  /-- A field of another kind than the expected one. -/
  | fieldKind (field expected kind : String)
  | unknownLevel (spelling : String)
deriving Repr, DecidableEq

namespace Complaint

/-- The text of a complaint. -/
def text : Complaint → String
  | .notADictionary kind => "Invalid config type: expected dict, received " ++ kind ++ "."
  | .fieldKind field expected kind =>
    "Invalid field '" ++ field ++ "': expected " ++ expected ++ ", received " ++ kind ++ "."
  | .unknownLevel spelling => "Unknown log level '" ++ spelling ++ "'."

/-- What a lenient check uses instead. -/
def remedy : Complaint → String
  | .notADictionary _ => "Using defaults."
  | .fieldKind .. => "Using fallback."
  | .unknownLevel _ => "Using INFO."

end Complaint

/-- What a lenient check has to say about settings that it accepts. -/
inductive Warning where
  | complaint (c : Complaint)
  /-- A number was read as a switch. -/
  | fromNumber (field : String) (number : Value)
  /-- A word was read as a switch. -/
  | fromWord (field word : String) (on : Bool)
deriving Repr

/-- The text of a warning. -/
def Warning.text : Warning → String
  | .complaint c => c.text ++ " " ++ c.remedy
  | .fromNumber field number =>
    "Field '" ++ field ++ "' converted from number " ++ number.written ++ " to bool."
  | .fromWord field word on =>
    "Field '" ++ field ++ "' converted from '" ++ word ++ "' to " ++ (Value.bool on).written ++ "."

end DirGlob
