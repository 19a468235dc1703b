import DirGlob.Regex.Basic

set_option autoImplicit false

/-! # Reading the text of a regular expression

The text of an expression is read in one pass from left to right, a character at a time and without
looking ahead; the first fault that is met ends the reading. A backslash and the character after it
make one token. What a token means depends on the mode of the reader: in the text, after a
parenthesis (which opens a group or the guard `(?!\.)`), or inside a character set.

Inside a set every token but the closing bracket is a member or the end of a range, the tokens
that mean something outside included. A closing bracket that comes first is a member, and so is a
dash that comes first or last. An escaped letter or digit is a fault, inside a set always, and
outside it unless it is `\Z`, the end of the name. -/

namespace DirGlob.Regex

/-! ## Faults -/

/-- What is wrong with the text of an expression. -/
inductive Fault where
  /-- An escaped letter or digit that means nothing here. -/
  | badEscape (spelled : String)
  /-- A backslash at the end of the text. -/
  | lostEscape
  /-- A range whose ends are in the wrong order, as they are spelled. -/
  | badRange (lo hi : String)
  | unbalancedParenthesis
  | missingParenthesis
  | unterminatedSet
  /-- A star that follows no character set. -/
  | nothingToRepeat
  /-- A group that begins like a guard and is none. -/
  | unknownExtension
deriving Repr, DecidableEq

/-- The text of the fault, without its place. -/
def Fault.text : Fault → String
  | .badEscape spelled => "bad escape " ++ spelled
  | .lostEscape => "bad escape (end of pattern)"
  | .badRange lo hi => "bad character range " ++ lo ++ "-" ++ hi
  | .unbalancedParenthesis => "unbalanced parenthesis"
  | .missingParenthesis => "missing ), unterminated subpattern"
  | .unterminatedSet => "unterminated character set"
  | .nothingToRepeat => "nothing to repeat"
  | .unknownExtension => "unknown extension"

/-- A malformed expression: the fault, its position and the text that was read. -/
structure Malformed where
  fault : Fault
  position : Nat
  source : String
deriving Repr, DecidableEq

/-- A position in a text; for a text of several lines also the line and the column, counted from
    one. A negative position counts from the end when the line is looked for. -/
def placeText (source : List Char) (position : Int) : String :=
  let place := " at position " ++ toString position
  if source.contains '\n' then
    let before := source.take (if position < 0 then source.length + position else position).toNat
    let line := before.count '\n' + 1
    let column := position - before.length + (before.reverse.takeWhile (· ≠ '\n')).length + 1
    place ++ " (line " ++ toString line ++ ", column " ++ toString column ++ ")"
  else place

/-- The text of the fault and its place. -/
def Malformed.message (e : Malformed) : String :=
  e.fault.text ++ placeText e.source.toList e.position

/-! ## Tokens -/

/-- A character of the text, with or without a backslash before it. -/
structure Token where
  escaped : Bool
  char : Char
deriving Repr, DecidableEq

namespace Token

/-- The token as it stands in the text. -/
def spelled (t : Token) : String :=
  String.ofList (if t.escaped then ['\\', t.char] else [t.char])

/-- How many characters of the text the token takes. -/
def width (t : Token) : Nat := if t.escaped then 2 else 1

/-- Whether the token is the character without a backslash. -/
def isPlain (t : Token) (c : Char) : Bool := !t.escaped && t.char = c

/-- Whether the token is an escaped letter or digit of ASCII. -/
def isLetterEscape (t : Token) : Bool := t.escaped && t.char.isAlphanum

end Token

/-! ## The reader -/

/-- Where the reader of a set is. -/
inductive SetPhase where
  /-- After the opening bracket. -/
  | opening
  /-- Before the first member. -/
  | first
  /-- After a member that may still turn out to begin a range. -/
  | member (lo : Token) (position : Nat)
  /-- After a member and a dash. -/
  | dash (lo : Token) (position : Nat)
  /-- After a range. -/
  | next
deriving Repr, DecidableEq

/-- A character set that is being read; its items are kept last first. -/
structure SetReader where
  position : Nat
  negated : Bool
  items : List CharSet.Item
  phase : SetPhase
deriving Repr, DecidableEq

/-- What the next token belongs to. -/
inductive Mode where
  | text
  /-- After the parenthesis at this position. -/
  | opened (position : Nat)
  /-- Inside the guard at this position, with these tokens to come. -/
  | guard (position : Nat) (rest : List Token)
  | set (s : SetReader)
deriving Repr, DecidableEq

/-- A group that is being read, or the whole expression: the position of its parenthesis, the
    alternatives that are complete, and the one that is being read. -/
structure Frame where
  position : Nat
  complete : Option Regex
  current : Regex
deriving Repr, DecidableEq

namespace Frame

/-- A group of which nothing has been read. -/
def opened (position : Nat) : Frame := ⟨position, none, .empty⟩

/-- Adds an item to the alternative that is being read. -/
def push (f : Frame) (item : Regex) : Frame := { f with current := .seq f.current item }

/-- The expression of the group. -/
def body (f : Frame) : Regex :=
  match f.complete with
  | none => f.current
  | some complete => .alt complete f.current

/-- Begins another alternative. -/
def bar (f : Frame) : Frame := { f with complete := some f.body, current := .empty }

/-- Repeats the last item, which must be a character set. -/
def star? (f : Frame) : Option Frame :=
  match f.current with
  | .seq before (.set s) => some { f with current := .seq before (.run s) }
  | _ => none

end Frame

/-- A reader: the position of the token that is being read, whether its backslash has been read,
    and the groups that are open, innermost first. -/
structure Reader where
  position : Nat
  escaping : Bool
  mode : Mode
  frame : Frame
  outer : List Frame
deriving Repr, DecidableEq

namespace Reader

/-- The reader before the text. -/
def start : Reader := ⟨0, false, .text, .opened 0, []⟩

/-- Adds an item to the group that is being read. -/
def push (r : Reader) (item : Regex) : Reader :=
  { r with mode := .text, frame := r.frame.push item }

/-- Opens the group of the parenthesis at this position. -/
def openGroup (r : Reader) (position : Nat) : Reader :=
  { r with mode := .text, frame := .opened position, outer := r.frame :: r.outer }

/-- Closes a set with its last items. -/
def closeSet (r : Reader) (s : SetReader) (last : List CharSet.Item) : Reader :=
  r.push (.set ⟨s.items.reverse ++ last, s.negated⟩)

/-- Reads a token outside sets and guards. -/
def textToken (r : Reader) (t : Token) : Except (Fault × Nat) Reader :=
  if t.escaped then
    if t.char = 'Z' then .ok (r.push .finish)
    else if t.isLetterEscape then .error (.badEscape t.spelled, r.position)
    else .ok (r.push (.char t.char))
  else match t.char with
    | '(' => .ok { r with mode := .opened r.position }
    | ')' => match r.outer with
      | [] => .error (.unbalancedParenthesis, r.position)
      | f :: outer => .ok { r with frame := f.push (.group r.frame.body), outer := outer }
    | '|' => .ok { r with frame := r.frame.bar }
    | '*' => match r.frame.star? with
      | some f => .ok { r with frame := f }
      | none => .error (.nothingToRepeat, r.position)
    | '^' => .ok (r.push .start)
    | '[' => .ok { r with mode := .set ⟨r.position, false, [], .opening⟩ }
    | c => .ok (r.push (.char c))

/-- Takes a token as a member of the set. -/
def setMember (r : Reader) (s : SetReader) (t : Token) : Except (Fault × Nat) Reader :=
  if t.isLetterEscape then .error (.badEscape t.spelled, r.position)
  else .ok { r with mode := .set { s with phase := .member t r.position } }

/-- Takes a token as the upper end of a range. -/
def setRange (r : Reader) (s : SetReader) (lo : Token) (position : Nat) (hi : Token) :
    Except (Fault × Nat) Reader :=
  if hi.isLetterEscape then .error (.badEscape hi.spelled, r.position)
  else if hi.char < lo.char then .error (.badRange lo.spelled hi.spelled, position)
  else .ok { r with
    mode := .set { s with items := .range lo.char hi.char :: s.items, phase := .next } }

/-- Reads a token inside a set. -/
def setToken (r : Reader) (s : SetReader) (t : Token) : Except (Fault × Nat) Reader :=
  match s.phase with
  | .opening =>
    if t.isPlain '^' then .ok { r with mode := .set { s with negated := true, phase := .first } }
    else r.setMember s t
  | .first => r.setMember s t
  | .member lo position =>
    if t.isPlain '-' then .ok { r with mode := .set { s with phase := .dash lo position } }
    else if t.isPlain ']' then .ok (r.closeSet s [.single lo.char])
    else r.setMember { s with items := .single lo.char :: s.items } t
  | .dash lo position =>
    if t.isPlain ']' then .ok (r.closeSet s [.single lo.char, .single '-'])
    else r.setRange s lo position t
  | .next => if t.isPlain ']' then .ok (r.closeSet s []) else r.setMember s t

/-- Reads a token in whichever mode the reader is. -/
def modeToken (r : Reader) (t : Token) : Except (Fault × Nat) Reader :=
  match r.mode with
  | .text => r.textToken t
  | .opened position =>
    if t.isPlain '?' then
      .ok { r with mode := .guard position [⟨false, '!'⟩, ⟨true, '.'⟩, ⟨false, ')'⟩] }
    else (r.openGroup position).textToken t
  | .guard position rest =>
    if rest = [t] then .ok (r.push .notDot)
    else if rest.head? = some t then .ok { r with mode := .guard position rest.tail }
    else .error (.unknownExtension, position)
  | .set s => r.setToken s t

/-- Reads a token and goes on to the position after it. -/
def token (r : Reader) (t : Token) : Except (Fault × Nat) Reader :=
  (r.modeToken t).map fun after =>
    { after with position := r.position + t.width, escaping := false }

/-- Reads a character. -/
def step (r : Reader) (c : Char) : Except (Fault × Nat) Reader :=
  if r.escaping then r.token ⟨true, c⟩
  else if c = '\\' then .ok { r with escaping := true }
  else r.token ⟨false, c⟩

/-- The expression that has been read when the text ends. -/
def finish (r : Reader) : Except (Fault × Nat) Regex :=
  if r.escaping then .error (.lostEscape, r.position)
  else match r.mode, r.outer with
    | .text, [] => .ok r.frame.body
    | .text, _ :: _ => .error (.missingParenthesis, r.frame.position)
    | .opened position, _ | .guard position _, _ => .error (.missingParenthesis, position)
    | .set s, _ => .error (.unterminatedSet, s.position)

end Reader

/-- Reads the text of an expression. -/
def ofChars (text : List Char) : Except (Fault × Nat) Regex := do
  (← text.foldlM Reader.step .start).finish

/-- Reads the text of an expression; a failure tells where the text is malformed. -/
def ofText (text : String) : Except Malformed Regex :=
  match ofChars text.toList with
  | .ok r => .ok r
  | .error (fault, position) => .error ⟨fault, position, text⟩

end DirGlob.Regex
