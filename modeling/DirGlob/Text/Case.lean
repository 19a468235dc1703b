set_option autoImplicit false

/-! # Letter case, as far as Latin words need it

The words that are compared without regard to case (names of log levels, spellings of yes and
no) are written with the letters A to Z. A character matters to such a comparison only if its
full case mapping is written with these letters, so the mappings below change just those
characters: the letters themselves, the few letters and ligatures whose capitals are A to Z, and
the Kelvin sign, whose small letter is `k`. Every other character stays as it is, and no
comparison can tell. -/

namespace DirGlob.Text

/-- The capitals of a character that are spelled with A to Z, or else the character. -/
def capitals (c : Char) : List Char :=
  if 'a' ≤ c ∧ c ≤ 'z' then [c.toUpper]
  else match c.toNat with
    | 0xdf => ['S', 'S']
    | 0x131 => ['I']
    | 0x17f => ['S']
    | 0xfb00 => ['F', 'F']
    | 0xfb01 => ['F', 'I']
    | 0xfb02 => ['F', 'L']
    | 0xfb03 => ['F', 'F', 'I']
    | 0xfb04 => ['F', 'F', 'L']
    | 0xfb05 => ['S', 'T']
    | 0xfb06 => ['S', 'T']
    | _ => [c]

/-- The small letter of a character that is one of a to z, or else the character. -/
def small (c : Char) : Char :=
  if 'A' ≤ c ∧ c ≤ 'Z' then c.toLower
  else if c.toNat = 0x212a then 'k'
  else c

/-- The text in capitals. -/
def upper (s : String) : String := String.ofList (s.toList.flatMap capitals)

/-- The text in small letters. -/
def lower (s : String) : String := String.ofList (s.toList.map small)

end DirGlob.Text
