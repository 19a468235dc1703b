import DirGlob.Text.Blank
import DirGlob.Text.Case
import DirGlob.Text.Digit

set_option autoImplicit false

/-! # Floating-point numbers and their shortest decimal text

A number of the binary format with 64 bits is an integer significand times a power of two. It
is kept here in that exact form, so that reading it from a decimal text, writing it and cutting
it to an integer are integer arithmetic.

* **Reading** rounds the decimal to the nearest number of the format, and a decimal half way
  between two to the one with the even significand.
* **Writing** takes the fewest decimal digits that read back as the same number, and of the
  texts with so few digits the nearest. They are found by trying 1, 2, … 17 digits: the decimals
  next below and next above the number on that grid are tested against the interval of reals that
  round to it, whose ends belong to it exactly if the significand is even. -/

namespace DirGlob

/-- A number of the binary format with 64 bits. -/
inductive Binary64 where
  /-- The number `± significand · 2 ^ exponent`. -/
  | finite (negative : Bool) (significand : Nat) (exponent : Int)
  | infinite (negative : Bool)
  | nan
deriving Repr, DecidableEq, Inhabited

namespace Binary64

/-! ## Exact comparison of scaled integers -/

/-- `b ^ e` as a numerator and a denominator of natural numbers. -/
def powRatio (b : Nat) (e : Int) : Nat × Nat := (b.pow e.toNat, b.pow (-e).toNat)

/-- Whether `a · 10 ^ k ≤ b · 2 ^ q`. -/
def decimalLe (a : Nat) (k : Int) (b : Nat) (q : Int) : Bool :=
  let (tn, td) := powRatio 10 k
  let (bn, bd) := powRatio 2 q
  a * tn * bd ≤ b * bn * td

/-- Whether `b · 2 ^ q ≤ a · 10 ^ k`. -/
def decimalGe (a : Nat) (k : Int) (b : Nat) (q : Int) : Bool :=
  let (tn, td) := powRatio 10 k
  let (bn, bd) := powRatio 2 q
  b * bn * td ≤ a * tn * bd

/-! ## Reading -/

/-- The least exponent of the format. -/
def minExponent : Int := -1074

/-- The least significand with 53 binary digits, which is as many as the format has. -/
def leastFull : Nat := Nat.pow 2 52

/-- The number of binary digits of a natural number. -/
def bitLength (n : Nat) : Nat := if n = 0 then 0 else n.log2 + 1

/-- The quotient rounded to the nearest integer, a half to the even one. -/
def roundDiv (num den : Nat) : Nat :=
  let q := num / den
  let r := 2 * (num % den)
  if r < den then q else if r > den then q + 1 else if q % 2 = 0 then q else q + 1

/-- The number of the format nearest to `± num / den`, for a positive `den`. -/
def ofRatio (negative : Bool) (num den : Nat) : Binary64 :=
  let guess : Int := bitLength num - bitLength den - 53
  -- the quotient by `2 ^ guess` has 53 or 54 binary digits; a 54th is given up
  let ratio (q : Int) : Nat × Nat :=
    let (bn, bd) := powRatio 2 q
    (num * bd, den * bn)
  let q₀ := max minExponent guess
  let (n₀, d₀) := ratio q₀
  let q := if n₀ / d₀ < 2 * leastFull then q₀ else q₀ + 1
  let (n, d) := ratio q
  let m := roundDiv n d
  let (m, q) := if m = 2 * leastFull then (leastFull, q + 1) else (m, q)
  if q > 971 then .infinite negative else .finite negative m q

/-- The number of the format nearest to `± digits · 10 ^ e`; far-off exponents are decided by the
    number of digits alone. -/
def ofDecimal (negative : Bool) (digits : Nat) (e : Int) : Binary64 :=
  let magnitude : Int := (toString digits).length + e
  if digits = 0 ∨ magnitude < -400 then .finite negative 0 minExponent
  else if magnitude > 400 then .infinite negative
  else
    let (tn, td) := powRatio 10 e
    ofRatio negative (digits * tn) td

/-- Reads a decimal text: a sign, digits with an optional point, an optional exponent, or a word
    for infinity or for no number; white space around it does not count. -/
def ofText? (s : String) : Option Binary64 :=
  let (negative, cs) := Text.readSign (Text.trimBy Text.isSpace s.toList)
  let word := Text.lower (String.ofList cs)
  if word = "inf" ∨ word = "infinity" then some (.infinite negative)
  else if word = "nan" then some .nan
  else
    let (whole, wholeCount, rest) := Text.readDigits 0 0 cs
    let (all, allCount, rest) := match rest with
      | '.' :: rest =>
        let (fraction, count, rest) := Text.readDigits 0 0 rest
        (whole * Nat.pow 10 count + fraction, wholeCount + count, rest)
      | rest => (whole, wholeCount, rest)
    let places : Int := (allCount : Int) - wholeCount
    if allCount = 0 then none
    else match rest with
      | [] => some (ofDecimal negative all (-places))
      | e :: rest =>
        if e = 'e' ∨ e = 'E' then
          let (down, rest) := Text.readSign rest
          match Text.readDigits 0 0 rest with
          | (n, count, []) =>
            if count = 0 then none
            else some (ofDecimal negative all ((if down then -(n : Int) else n) - places))
          | _ => none
        else none

/-! ## Writing -/

/-- The decimal exponent of the leading digit of `m · 2 ^ q`, for a positive `m`. -/
def leadingExponent (m : Nat) (q : Int) : Int :=
  let (bn, bd) := powRatio 2 q
  let guess : Int := ((toString (m * bn)).length : Int) - (toString bd).length
  if decimalLe 1 guess m q then guess else guess - 1

/-- Whether `a · 10 ^ k` is read as the number `m · 2 ^ q`. Below a power of two the next number is
    only half as far away. -/
def readsBack (m : Nat) (q : Int) (a : Nat) (k : Int) : Bool :=
  let below := if m = leastFull ∧ q > minExponent then 4 * m - 1 else 4 * m - 2
  let above := 4 * m + 2
  if m % 2 = 0 then decimalGe a k below (q - 2) && decimalLe a k above (q - 2)
  else !decimalLe a k below (q - 2) && !decimalGe a k above (q - 2)

/-- The integer part of `m · 2 ^ q / 10 ^ k`, and whether the next integer is nearer (a tie goes to
    the even one). -/
def gridBelow (m : Nat) (q : Int) (k : Int) : Nat × Bool :=
  let (tn, td) := powRatio 10 k
  let (bn, bd) := powRatio 2 q
  let num := m * bn * td
  let den := tn * bd
  (num / den, roundDiv num den ≠ num / den)

/-- The shortest decimal `a · 10 ^ k` that reads back as `m · 2 ^ q`, trying grids of `count` and
    more digits, `fuel` of them. -/
def shortestFrom (m : Nat) (q top : Int) : Nat → Nat → Nat × Int
  | 0, count =>
    let k := top - (count : Int) + 1
    ((gridBelow m q k).1, k)
  | fuel + 1, count =>
    let k := top - (count : Int) + 1
    let (a, up) := gridBelow m q k
    match readsBack m q a k, readsBack m q (a + 1) k with
    | true, true => (if up then a + 1 else a, k)
    | true, false => (a, k)
    | false, true => (a + 1, k)
    | false, false => shortestFrom m q top fuel (count + 1)

/-- The digits without the zeros at the end, and how many zeros there were. -/
def dropZeros (digits : List Char) : List Char × Nat :=
  let kept := (digits.reverse.dropWhile (· = '0')).reverse
  (kept, digits.length - kept.length)

/-- A positive number: positional when the point falls within the sixteen places after the first
    digit or at most four places before it, else in powers of ten with at least two digits of
    exponent. A positional number has a digit after the point. -/
def magnitudeText (m : Nat) (q : Int) : List Char :=
  let (a, k) := shortestFrom m q (leadingExponent m q) 17 1
  let (digits, zeros) := dropZeros (toString a).toList
  let point : Int := digits.length + zeros + k
  if point ≤ -4 ∨ point > 16 then
    let e := point - 1
    let tail := (toString e.natAbs).toList
    let mantissa := match digits with
      | [] => []
      | [d] => [d]
      | d :: ds => d :: '.' :: ds
    mantissa ++ 'e' :: (if e < 0 then '-' else '+') ::
      (if tail.length < 2 then '0' :: tail else tail)
  else if point ≤ 0 then
    '0' :: '.' :: List.replicate (-point).toNat '0' ++ digits
  else
    let whole := digits.take point.toNat
    let padded := whole ++ List.replicate (point.toNat - whole.length) '0'
    match digits.drop point.toNat with
    | [] => padded ++ ['.', '0']
    | fraction => padded ++ '.' :: fraction

/-- The shortest text that reads back as the number. -/
def text : Binary64 → String
  | .nan => "nan"
  | .infinite negative => if negative then "-inf" else "inf"
  | .finite negative m q =>
    let magnitude := if m = 0 then ['0', '.', '0'] else magnitudeText m q
    String.ofList (if negative then '-' :: magnitude else magnitude)

/-! ## Cutting and comparing -/

/-- Whether the number is zero, of either sign. -/
def isZero : Binary64 → Bool
  | .finite _ m _ => m = 0
  | _ => false

/-- Whether the number is one. -/
def isOne : Binary64 → Bool
  | .finite false m q => decimalLe 1 0 m q && decimalGe 1 0 m q
  | _ => false

/-- The integer that a finite number is, if it is one. -/
def toInt? : Binary64 → Option Int
  | .finite negative m q =>
    let (bn, bd) := powRatio 2 q
    let n : Int := (m * bn / bd : Nat)
    if m * bn % bd = 0 then some (if negative then -n else n) else none
  | _ => none

/-- The integer part of a finite number, cut toward zero. -/
def truncate? : Binary64 → Option Int
  | .finite negative m q =>
    let (bn, bd) := powRatio 2 q
    let n : Int := (m * bn / bd : Nat)
    some (if negative then -n else n)
  | _ => none

end Binary64

end DirGlob
