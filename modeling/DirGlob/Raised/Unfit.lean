import DirGlob.Number.Integer

set_option autoImplicit false

/-! # Arguments that make no error

An error is made of arguments, and what it has to say is worked out from them. `Unfit` holds the
reasons why arguments make no error, or one that cannot be shown: there are too few or too many of
them, or one of them is of a kind that cannot stand in its place. -/

namespace DirGlob

/-- How many arguments there may be. -/
inductive Arity where
  | exactly (n : Nat)
  | atLeast (n : Nat)
  | atMost (n : Nat)
deriving Repr, DecidableEq

/-- The text of the arity. -/
def Arity.text : Arity → String
  | exactly n => "exactly " ++ toString n
  | atLeast n => "at least " ++ toString n
  | atMost n => "at most " ++ toString n

/-- Why arguments make no error, or one that cannot be shown. -/
inductive Unfit where
  /-- An argument that has a name was left out. -/
  | missing (error argument : String)
  /-- More arguments than have a name. -/
  | surplus (error : String) (least most given : Nat)
  /-- A wrong number of arguments, for something that may have a name. -/
  | count (of? : Option String) (arity : Arity) (given : Nat)
  /-- The argument with this number is no text. -/
  | notText (of? : Option String) (number : Nat) (kind : String)
  /-- A value of a kind that stands for no integer. -/
  | notInteger (kind : String)
  /-- An integer that has no room in 64 bits. -/
  | tooLarge
  /-- A number of characters that is out of range. -/
  | outOfRange
  /-- A position of a kind that is no number. -/
  | position (kind : String)
  /-- A position that is a number and no integer. -/
  | noInteger (e : IntegerError)
  /-- A cut at a position that has a point. -/
  | cut
  /-- A list or a tuple in the place of a text with lines. -/
  | countedPart (kind : String)
  /-- Where a part ends is given by its line, and the column is left out. -/
  | halfEnd
  /-- A value of a kind that nothing can be added to. -/
  | sum (kind : String)
  /-- A value of a kind that nothing can be taken from. -/
  | difference (kind : String)
  /-- A number of marks that has a point, that is out of range, or for which there is no room. -/
  | repetition
  | longRepetition
  | noRoom
  /-- The members of a group are no sequence, or there are none, or the first one is no error. -/
  | noSequence
  | noMembers
  | notAnError
deriving Repr, DecidableEq

namespace Unfit

/-- The text of the reason. -/
def message : Unfit → String
  | missing error argument =>
    error ++ ".__init__() missing 1 required positional argument: '" ++ argument ++ "'"
  | surplus error least most given =>
    error ++ ".__init__() takes " ++
      (if least = most then toString most
        else "from " ++ toString least ++ " to " ++ toString most) ++
      " positional arguments but " ++ toString given ++ " were given"
  | count of? arity given =>
    of?.getD "function" ++ " takes " ++ arity.text ++ " arguments (" ++ toString given ++ " given)"
  | notText of? number kind =>
    ((of?.map (· ++ " ")).getD "") ++ "argument " ++ toString number ++ " must be str, not " ++ kind
  | notInteger kind => "'" ++ kind ++ "' object cannot be interpreted as an integer"
  | tooLarge => "Python int too large to convert to C ssize_t"
  | outOfRange | longRepetition => "cannot fit 'int' into an index-sized integer"
  | position kind => "%d format: a real number is required, not " ++ kind
  | noInteger e => e.message
  | cut => "slice indices must be integers or None or have an __index__ method"
  | countedPart kind => kind ++ ".count() takes exactly one argument (3 given)"
  | halfEnd => "end_offset must be provided when end_lineno is provided"
  | sum "bytes" => "can't concat int to bytes"
  | sum kind =>
    if ["str", "list", "tuple"].contains kind then
      "can only concatenate " ++ kind ++ " (not \"int\") to " ++ kind
    else "unsupported operand type(s) for +: '" ++ kind ++ "' and 'int'"
  | difference kind => "unsupported operand type(s) for -: '" ++ kind ++ "' and 'int'"
  | repetition => "can't multiply sequence by non-int of type 'float'"
  | noRoom => ""
  | noSequence => "second argument (exceptions) must be a sequence"
  | noMembers => "second argument (exceptions) must be a non-empty sequence"
  | notAnError => "Item 0 of second argument (exceptions) is not an exception"

/-- The name of the reason, as a failure. -/
def name : Unfit → String
  | outOfRange | noInteger .notANumber | noMembers | notAnError => "ValueError"
  | noInteger .infinity | tooLarge | longRepetition => "OverflowError"
  | noRoom => "MemoryError"
  | _ => "TypeError"

end Unfit

end DirGlob
