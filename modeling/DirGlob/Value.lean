import DirGlob.Number.Binary64
import DirGlob.Text.Quoted

set_option autoImplicit false

/-! # Values of unknown kind

A path, a pattern, a configuration or one of its fields may be handed over as a value of any
kind, and what is done with it depends on the kind. `Value` is the type of such values. A value has
two spellings: the *written* one, which shows its kind (texts stand between quotes), and the
*shown* one, which differs from it only for a text, which is shown as it is, and for an object, which
has spellings of its own. A value that holds a very long integer has neither: it cannot be shown. -/

namespace DirGlob

/-! ## Long integers -/

/-- How many digits a decimal may have, where it is read and where it is written. -/
def Integer.maxDigits : Nat := 4300

/-- Whether an integer has no more digits than a decimal may have. -/
def Integer.isWritable (n : Int) : Bool := n.natAbs < Nat.pow 10 Integer.maxDigits

/-! ## Values -/

/-- The two spellings of an object. They are up to whoever made it, and need not have to do with the
    path that the object stands for. -/
structure Guise where
  shown : String
  written : String
deriving Repr, DecidableEq, Inhabited

/-- A value of unknown kind. -/
inductive Value where
  | null
  | bool (b : Bool)
  | int (n : Int)
  | float (x : Binary64)
  | text (s : String)
  | bytes (bs : List UInt8)
  | list (vs : List Value)
  | tuple (vs : List Value)
  /-- Entries in the order in which they were put in, under different keys. -/
  | dict (entries : List (String × Value))
  /-- An object that gives a path when it is asked for one. -/
  | pathLike (path : Value) (guise : Guise)
deriving Repr, Inhabited

namespace Value

/-- The name of the kind, as messages give it. -/
def kind : Value → String
  | .null => "NoneType"
  | .bool _ => "bool"
  | .int _ => "int"
  | .float _ => "float"
  | .text _ => "str"
  | .bytes _ => "bytes"
  | .list _ => "list"
  | .tuple _ => "tuple"
  | .dict _ => "dict"
  | .pathLike .. => "FsPath"

/-- Whether the value counts as true: neither nothing, nor zero, nor empty. -/
def truthy : Value → Bool
  | .null => false
  | .bool b => b
  | .int n => n ≠ 0
  | .float x => !x.isZero
  | .text s => s ≠ ""
  | .bytes bs => !bs.isEmpty
  | .list vs | .tuple vs => !vs.isEmpty
  | .dict entries => !entries.isEmpty
  | .pathLike .. => true

/-- The integer that an integer or a truth value stands for. -/
def whole? : Value → Option Int
  | .bool b => some (if b then 1 else 0)
  | .int n => some n
  | _ => none

mutual

/-- The written spelling, which shows the kind. -/
def written : Value → String
  | .null => "None"
  | .bool b => if b then "True" else "False"
  | .int n => toString n
  | .float x => x.text
  | .text s => Text.quoted s
  | .bytes bs => Text.quotedBytes bs
  | .list vs => "[" ++ ", ".intercalate (writtenList vs) ++ "]"
  | .tuple [v] => "(" ++ v.written ++ ",)"
  | .tuple vs => "(" ++ ", ".intercalate (writtenList vs) ++ ")"
  | .dict entries => "\x7b" ++ ", ".intercalate (writtenEntries entries) ++ "\x7d"
  | .pathLike _ guise => guise.written

/-- The written spellings of the members of a list. -/
def writtenList : List Value → List String
  | [] => []
  | v :: vs => v.written :: writtenList vs

/-- The written spellings of the entries of a dictionary. -/
def writtenEntries : List (String × Value) → List String
  | [] => []
  | (k, v) :: entries => (Text.quoted k ++ ": " ++ v.written) :: writtenEntries entries

end

/-- The shown spelling: a text as it is, an object as it wants to be shown, any other value as it is
    written. -/
def shown : Value → String
  | .text s => s
  | .pathLike _ guise => guise.shown
  | v => v.written

mutual

/-- Whether the value can be shown: it holds no integer with too many digits. -/
def isShowable : Value → Bool
  | .int n => Integer.isWritable n
  | .list vs | .tuple vs => areShowable vs
  | .dict entries => haveShowable entries
  | _ => true

/-- Whether all members of a list can be shown. -/
def areShowable : List Value → Bool
  | [] => true
  | v :: vs => v.isShowable && areShowable vs

/-- Whether the values of all entries of a dictionary can be shown. -/
def haveShowable : List (String × Value) → Bool
  | [] => true
  | (_, v) :: entries => v.isShowable && haveShowable entries

end

/-! ## Dictionaries -/

/-- The value under a key. -/
def get? (entries : List (String × Value)) (key : String) : Option Value :=
  (entries.find? (·.1 = key)).map (·.2)

/-- Puts a value under a key: in the place of the value that is there, or at the end. -/
def put : List (String × Value) → String → Value → List (String × Value)
  | [], key, v => [(key, v)]
  | (k, w) :: entries, key, v =>
    if k = key then (key, v) :: entries else (k, w) :: put entries key v

theorem get?_put_self (entries : List (String × Value)) (key : String) (v : Value) :
    get? (put entries key v) key = some v := by
  induction entries with
  | nil => simp [put, get?]
  | cons e entries ih =>
    obtain ⟨k, w⟩ := e
    by_cases h : k = key
    · simp [put, get?, h]
    · simpa [put, get?, h] using ih

theorem get?_put_of_ne (entries : List (String × Value)) {key other : String} (v : Value)
    (h : other ≠ key) : get? (put entries key v) other = get? entries other := by
  induction entries with
  | nil => simp [put, get?, Ne.symm h]
  | cons e entries ih =>
    obtain ⟨k, w⟩ := e
    by_cases hk : k = key
    · subst hk
      simp [put, get?, Ne.symm h]
    · by_cases ho : k = other
      · subst ho
        simp [put, get?, h]
      · simpa [put, get?, hk, ho] using ih

end Value

end DirGlob
