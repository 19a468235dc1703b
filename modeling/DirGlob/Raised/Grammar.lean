import DirGlob.Path.Normalize
import DirGlob.Raised.Basic
import DirGlob.Value.Key
import DirGlob.Value.Members

set_option autoImplicit false

/-! # Errors of grammar

The error of a text that breaks the rules of its language may know where that is: in which file, in
which line, how the line reads, and from which column to which. In the text of the error stand the
file and the number of the line. Its trace shows the line as well, without its margin, and marks the
columns on a line below it. -/

namespace DirGlob

/-! ## Columns -/

/-- A column: an integer, or a number with a point, at which no line can be cut. -/
inductive Column where
  | whole (n : Int)
  | pointed (x : Binary64)
deriving Repr, DecidableEq

namespace Column

/-- The column that a value stands for, if it is a number. -/
def ofValue? : Value → Option Column
  | .float x => some (pointed x)
  | v => v.whole?.map whole

/-- The column after an integer; there is none after a number with a point. -/
def next : Column → Column
  | whole n => whole (n + 1)
  | pointed x => pointed x

/-- Whether the column comes after as many others as the margin has. -/
def isPast (margin : Nat) : Column → Bool
  | whole n => margin < n
  | pointed (.infinite negative) => !negative
  | pointed x => x.truncate?.any fun n => (margin : Int) < n

end Column

/-! ## Locations -/

/-- Where a text breaks the rules of its language; what is not known is nothing. -/
structure Location where
  file : Value := .null
  line : Value := .null
  column : Value := .null
  text : Value := .null
  endColumn : Value := .null
deriving Repr

namespace Location

/-- Reads a location from its members; the one before the last of six means nothing. -/
def ofMembers : List Value → Except Unfit Location
  | [file, line, column, text] => .ok { file, line, column, text }
  | [_, _, _, _, _] => .error .halfEnd
  | [file, line, column, text, _, endColumn] => .ok { file, line, column, text, endColumn }
  | vs => .error (.count none (if vs.length < 4 then .atLeast 4 else .atMost 6) vs.length)

/-- The file without the directories above it, and the number of the line, between brackets. -/
def note (l : Location) : String :=
  let file := match l.file with
    | .text path => [(Path.cutLast path).2]
    | _ => []
  let line := match l.line with
    | .int n => ["line " ++ toString (if Integer.fits64 n then n else -1)]
    | _ => []
  match file ++ line with
  | [] => ""
  | parts => " (" ++ ", ".intercalate parts ++ ")"

/-- The file and the line, on a line of their own, if the line is known. -/
def heading (l : Location) : String :=
  match l.line with
  | .null => ""
  | line =>
    let file := if l.file.truthy then l.file.shown else "<string>"
    "  File \"" ++ file ++ "\", line " ++ line.shown ++ "\n"

/-- The file alone, if the line is not known. -/
def ending (l : Location) : String :=
  match l.line, l.file with
  | .null, .null => ""
  | .null, file => " (" ++ file.shown ++ ")"
  | _, _ => ""

/-- The value that says in which column the part ends, unless it is left out or zero. -/
def endColumn? (l : Location) : Except Failure (Option Value) :=
  match l.endColumn.changeable?, l.endColumn with
  | some kind, _ => .error (.changeableKey kind)
  | none, .null => .ok none
  | none, v@(.bool _) | none, v@(.int _) | none, v@(.float _) =>
    .ok (if v.truthy then some v else none)
  | none, v => .ok (some v)

/-- The columns from which to which something is marked. A part is one column wide if it ends where
    it starts, before all columns, or nowhere. -/
def columns (l : Location) : Except Failure (Column × Column) := do
  let stop? := (← l.endColumn?).filter fun v =>
    !v.isSameKey l.column && !v.isSameKey (.int (-1))
  match Column.ofValue? l.column, stop? with
  | some start, none => return (start, start.next)
  | some start, some v => match Column.ofValue? v with
    | some stop => return (start, stop)
    | none => .error (.unfit (.difference v.kind))
  | none, none => .error (.unfit (.sum l.column.kind))
  | none, some _ => .error (.unfit (.difference l.column.kind))

/-- How many marks there is room for. -/
def maxMarks : Int := 100000000

/-- The line below a line, with a mark under each of the columns; blanks stay as they are. Nothing
    is marked in the margin. -/
def marks (l : Location) (line : List Char) (margin : Nat) : Except Failure String := do
  match l.column with
  | .null => return ""
  | _ =>
    let (start, stop) ← l.columns
    if !start.isPast margin then return ""
    match start, stop with
    | .whole start, .whole stop =>
      if !Integer.fits64 (stop - start) then throw (.unfit .longRepetition)
      if maxMarks < stop - start then throw (.unfit .noRoom)
      let before := (line.take (start - 1 - margin).toNat).map fun c =>
        if Text.isBlank c then c else ' '
      return "    " ++ String.ofList (before ++ List.replicate (stop - start).toNat '^') ++ "\n"
    | .pointed _, _ => .error (.unfit .cut)
    | .whole _, .pointed _ => .error (.unfit .repetition)

/-- The line without its margin and its end, with what is marked on it. -/
def excerpt (l : Location) : Except Failure String := do
  match l.text with
  | .null => return ""
  | .text s =>
    let line := (s.toList.reverse.dropWhile (· = '\n')).reverse
    let shown := line.dropWhile fun c => c = ' ' || c = '\n' || c = '\x0c'
    let marked ← l.marks shown (line.length - shown.length)
    return "    " ++ String.ofList shown ++ "\n" ++ marked
  | .bytes _ => .error (.bytesWanted "str")
  | v => .error (.noMember v.kind "rstrip")

end Location

/-! ## The error -/

/-- The location of an error of grammar; only the second of two arguments gives one. -/
def Location.ofArguments : List Value → Except Failure Location
  | [_, v] => match v.members? with
    | some vs => (ofMembers vs).mapError .unfit
    | none => .error (.notIterable v.kind)
  | _ => .ok { }

/-- An error of grammar. -/
def Raised.grammar (name : String) (arguments : List Value) : Except Failure Raised := do
  let text := arguments.headD .null
  let l ← Location.ofArguments arguments
  let excerpt ← l.excerpt
  let detail := if text.truthy then text.shown else "<no detail available>"
  return {
    name
    text := text.shown ++ l.note
    trace := l.heading ++ excerpt ++ name ++ ": " ++ detail ++ l.ending }

end DirGlob
