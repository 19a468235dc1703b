set_option autoImplicit false

/-! # The grammar of JSON

What a text means as a JSON document is said by rules, one for each production of the grammar and
without any order in which they are to be tried. A text is taken from the left: each relation tells
what a text begins with, and what is left of the text behind it.

A document is one value with white space around it. What is written in it as a string stands for a
sequence of characters, so an escape that is half of a surrogate pair stands for nothing without the
other half. A number is known by its spelling. -/

namespace DirGlob.Text.Json

/-- A JSON value. The members of an object are in the order in which they are written. -/
inductive Value where
  | null
  | bool (b : Bool)
  | number (numeral : List Char)
  | string (s : String)
  | array (vs : List Value)
  | object (members : List (String × Value))

/-! ## White space and numbers -/

/-- The characters that may stand between the parts of a document. -/
def whiteSpace : List Char := [' ', '\t', '\n', '\r']

/-- White space, perhaps none. -/
inductive Space : List Char → List Char → Prop
  | none (rest : List Char) : Space rest rest
  | skip {c : Char} {text rest : List Char} (h : c ∈ whiteSpace) :
      Space text rest → Space (c :: text) rest

/-- One decimal digit or more. -/
inductive Digits : List Char → List Char → Prop
  | last {d : Char} (rest : List Char) (h : d.isDigit = true) : Digits (d :: rest) rest
  | more {d : Char} {text rest : List Char} (h : d.isDigit = true) :
      Digits text rest → Digits (d :: text) rest

/-- The digits of a number before its point: none of them is a zero that means nothing. -/
inductive Whole : List Char → List Char → Prop
  | zero (rest : List Char) : Whole ('0' :: rest) rest
  | digits {d : Char} {text rest : List Char} (h : d ≠ '0') :
      Digits (d :: text) rest → Whole (d :: text) rest

/-- The fraction of a number, if it has one. -/
inductive Fraction : List Char → List Char → Prop
  | none (rest : List Char) : Fraction rest rest
  | point {text rest : List Char} : Digits text rest → Fraction ('.' :: text) rest

/-- The exponent of a number, if it has one. -/
inductive Exponent : List Char → List Char → Prop
  | none (rest : List Char) : Exponent rest rest
  | unsigned {e : Char} {text rest : List Char} (he : e ∈ ['e', 'E']) :
      Digits text rest → Exponent (e :: text) rest
  | signed {e sign : Char} {text rest : List Char} (he : e ∈ ['e', 'E'])
      (hsign : sign ∈ ['+', '-']) : Digits text rest → Exponent (e :: sign :: text) rest

/-- A number. -/
inductive Numeral : List Char → List Char → Prop
  | positive {text text₁ text₂ rest : List Char} :
      Whole text text₁ → Fraction text₁ text₂ → Exponent text₂ rest → Numeral text rest
  | negative {text text₁ text₂ rest : List Char} :
      Whole text text₁ → Fraction text₁ text₂ → Exponent text₂ rest → Numeral ('-' :: text) rest

/-! ## Strings -/

/-- The character stands for itself in a string: it is neither a quote nor a backslash, and no
    control character. -/
def IsUnescaped (c : Char) : Prop := 0x20 ≤ c.toNat ∧ c ≠ '\"' ∧ c ≠ '\\'

/-- The characters that may stand behind a backslash, and what they mean there. -/
def shortEscapes : List (Char × Char) :=
  [('\"', '\"'), ('\\', '\\'), ('/', '/'), ('b', '\x08'), ('f', '\x0c'), ('n', '\n'), ('r', '\r'),
    ('t', '\t')]

/-- The value of a hexadecimal digit, in letters of either case. -/
def hexValue? (c : Char) : Option Nat :=
  if '0' ≤ c ∧ c ≤ '9' then some (c.toNat - '0'.toNat)
  else if 'a' ≤ c ∧ c ≤ 'f' then some (c.toNat - 'a'.toNat + 10)
  else if 'A' ≤ c ∧ c ≤ 'F' then some (c.toNat - 'A'.toNat + 10)
  else none

/-- The number that four hexadecimal digits are. -/
def codeUnit? (a b c d : Char) : Option Nat :=
  [a, b, c, d].foldlM (fun n digit => (hexValue? digit).map (16 * n + ·)) 0

/-- The rest of a string behind its opening quote; the list in the middle is what it stands for. -/
inductive ReadsString : List Char → List Char → List Char → Prop
  | close (rest : List Char) : ReadsString ('\"' :: rest) [] rest
  | unescaped {c : Char} {text s rest : List Char} (h : IsUnescaped c) :
      ReadsString text s rest → ReadsString (c :: text) (c :: s) rest
  | short {letter c : Char} {text s rest : List Char} (h : (letter, c) ∈ shortEscapes) :
      ReadsString text s rest → ReadsString ('\\' :: letter :: text) (c :: s) rest
  /-- A character by its code point. -/
  | code {a₁ a₂ a₃ a₄ c : Char} {text s rest : List Char}
      (h : codeUnit? a₁ a₂ a₃ a₄ = some c.toNat) :
      ReadsString text s rest →
        ReadsString ('\\' :: 'u' :: a₁ :: a₂ :: a₃ :: a₄ :: text) (c :: s) rest
  /-- A character by the two surrogates of its code point. -/
  | pair {a₁ a₂ a₃ a₄ b₁ b₂ b₃ b₄ c : Char} {high low : Nat} {text s rest : List Char}
      (hhigh : codeUnit? a₁ a₂ a₃ a₄ = some (0xd800 + high)) (hhighLt : high < 0x400)
      (hlow : codeUnit? b₁ b₂ b₃ b₄ = some (0xdc00 + low)) (hlowLt : low < 0x400)
      (hc : c.toNat = 0x10000 + 0x400 * high + low) :
      ReadsString text s rest →
        ReadsString ('\\' :: 'u' :: a₁ :: a₂ :: a₃ :: a₄ :: '\\' :: 'u' :: b₁ :: b₂ :: b₃ :: b₄ ::
          text) (c :: s) rest

/-! ## Values -/

mutual

/-- One value, without white space around it. -/
inductive ReadsValue : List Char → Value → List Char → Prop
  | null (rest : List Char) : ReadsValue ('n' :: 'u' :: 'l' :: 'l' :: rest) .null rest
  | true (rest : List Char) : ReadsValue ('t' :: 'r' :: 'u' :: 'e' :: rest) (.bool true) rest
  | false (rest : List Char) :
      ReadsValue ('f' :: 'a' :: 'l' :: 's' :: 'e' :: rest) (.bool false) rest
  | number {numeral text rest : List Char} (spelled : text = numeral ++ rest) :
      Numeral text rest → ReadsValue text (.number numeral) rest
  | string {text s rest : List Char} :
      ReadsString text s rest → ReadsValue ('\"' :: text) (.string (String.ofList s)) rest
  | emptyArray {text rest : List Char} :
      Space text (']' :: rest) → ReadsValue ('[' :: text) (.array []) rest
  | array {text rest : List Char} {vs : List Value} :
      ReadsElements text vs rest → ReadsValue ('[' :: text) (.array vs) rest
  | emptyObject {text rest : List Char} :
      Space text ('}' :: rest) → ReadsValue ('{' :: text) (.object []) rest
  | object {text rest : List Char} {members : List (String × Value)} :
      ReadsMembers text members rest → ReadsValue ('{' :: text) (.object members) rest

/-- The rest of an array behind its opening bracket, with one element or more. -/
inductive ReadsElements : List Char → List Value → List Char → Prop
  | last {text text₁ text₂ rest : List Char} {v : Value} :
      Space text text₁ → ReadsValue text₁ v text₂ → Space text₂ (']' :: rest) →
        ReadsElements text [v] rest
  | more {text text₁ text₂ text₃ rest : List Char} {v : Value} {vs : List Value} :
      Space text text₁ → ReadsValue text₁ v text₂ → Space text₂ (',' :: text₃) →
        ReadsElements text₃ vs rest → ReadsElements text (v :: vs) rest

/-- The rest of an object behind its opening brace, with one member or more. -/
inductive ReadsMembers : List Char → List (String × Value) → List Char → Prop
  | last {text text₁ text₂ text₃ text₄ text₅ key rest : List Char} {v : Value} :
      Space text ('\"' :: text₁) → ReadsString text₁ key text₂ → Space text₂ (':' :: text₃) →
        Space text₃ text₄ → ReadsValue text₄ v text₅ → Space text₅ ('}' :: rest) →
          ReadsMembers text [(String.ofList key, v)] rest
  | more {text text₁ text₂ text₃ text₄ text₅ text₆ key rest : List Char} {v : Value}
      {members : List (String × Value)} :
      Space text ('\"' :: text₁) → ReadsString text₁ key text₂ → Space text₂ (':' :: text₃) →
        Space text₃ text₄ → ReadsValue text₄ v text₅ → Space text₅ (',' :: text₆) →
          ReadsMembers text₆ members rest →
            ReadsMembers text ((String.ofList key, v) :: members) rest

end

section

variable {c c' : Char} {text text' rest rest' : List Char} {v : Value}

theorem Digits.exists_cons (h : Digits text rest) :
    ∃ d text', text = d :: text' ∧ d.isDigit = true := by
  cases h with
  | last rest h => exact ⟨_, _, rfl, h⟩
  | more h _ => exact ⟨_, _, rfl, h⟩

theorem Numeral.exists_cons (h : Numeral text rest) :
    ∃ d text', text = d :: text' ∧ (d.isDigit = true ∨ d = '-') := by
  cases h with
  | positive hwhole _ _ =>
      cases hwhole with
      | zero => exact ⟨_, _, rfl, .inl rfl⟩
      | digits _ hdigits =>
          obtain ⟨d, text', heq, hd⟩ := hdigits.exists_cons
          exact ⟨d, text', heq, .inl hd⟩
  | negative => exact ⟨_, _, rfl, .inr rfl⟩

/-- A value does not begin with white space. -/
theorem ReadsValue.exists_cons (h : ReadsValue text v rest) :
    ∃ c text', text = c :: text' ∧ c ∉ whiteSpace := by
  cases h with
  | number _ hnumeral =>
      obtain ⟨d, text', heq, hd⟩ := hnumeral.exists_cons
      refine ⟨d, text', heq, fun hmem => ?_⟩
      simp only [whiteSpace, List.mem_cons, List.not_mem_nil, or_false] at hmem
      rcases hmem with rfl | rfl | rfl | rfl <;> revert hd <;> decide
  | _ => exact ⟨_, _, rfl, by decide⟩

end

end DirGlob.Text.Json
