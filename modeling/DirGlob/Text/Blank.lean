set_option autoImplicit false

/-! # Blank characters and trimming

The white space of Unicode does not count around a number. Around a field of a configuration or the
name of a level the information separators `U+001C` to `U+001F` do not count either: they are blank
as well. A field of blanks alone counts as left out. -/

namespace DirGlob.Text

/-- Whether a character is white space. -/
def isSpace (c : Char) : Bool :=
  let n := c.toNat
  (0x09 ≤ n && n ≤ 0x0d) || n == 0x20 || n == 0x85 || n == 0xa0 || n == 0x1680 ||
    (0x2000 ≤ n && n ≤ 0x200a) || n == 0x2028 || n == 0x2029 || n == 0x202f || n == 0x205f ||
    n == 0x3000

/-- Whether a character is blank. -/
def isBlank (c : Char) : Bool := isSpace c || (0x1c ≤ c.toNat && c.toNat ≤ 0x1f)

/-- The list without the members of a class at both ends. -/
def trimBy {α : Type} (p : α → Bool) (s : List α) : List α :=
  ((s.dropWhile p).reverse.dropWhile p).reverse

theorem trimBy_prefix {α : Type} (p : α → Bool) (s : List α) : trimBy p s <+: s.dropWhile p := by
  have h : ((s.dropWhile p).reverse.dropWhile p) <:+ (s.dropWhile p).reverse :=
    List.dropWhile_suffix p
  simpa [trimBy] using List.reverse_prefix.2 h

/-- What is left does not begin with a member of the class. -/
theorem head?_trimBy {α : Type} {p : α → Bool} {s : List α} {a : α}
    (h : (trimBy p s).head? = some a) : p a = false := by
  have hd : (s.dropWhile p).head? = some a := by
    obtain ⟨t, ht⟩ := trimBy_prefix p s
    rw [← ht, List.head?_append, h, Option.some_or]
  simpa [hd] using List.head?_dropWhile_not p s

/-- What is left does not end with a member of the class. -/
theorem getLast?_trimBy {α : Type} {p : α → Bool} {s : List α} {a : α}
    (h : (trimBy p s).getLast? = some a) : p a = false := by
  rw [trimBy, List.getLast?_reverse] at h
  simpa [h] using List.head?_dropWhile_not p (s.dropWhile p).reverse

theorem dropWhile_eq_self {α : Type} {p : α → Bool} {s : List α}
    (h : ∀ a, s.head? = some a → p a = false) : s.dropWhile p = s := by
  cases s with
  | nil => rfl
  | cons a s => simp [h a rfl]

/-- What neither begins nor ends with a member of the class stays as it is. -/
theorem trimBy_eq_self_iff {α : Type} {p : α → Bool} {s : List α} :
    trimBy p s = s ↔ ∀ a, s.head? = some a ∨ s.getLast? = some a → p a = false := by
  constructor
  · intro h a ha
    rw [← h] at ha
    exact ha.elim head?_trimBy getLast?_trimBy
  · intro h
    have hlast : ∀ a, s.reverse.head? = some a → p a = false := fun a ha =>
      h a (.inr (by rwa [List.head?_reverse] at ha))
    rw [trimBy, dropWhile_eq_self fun a ha => h a (.inl ha), dropWhile_eq_self hlast,
      List.reverse_reverse]

/-- The characters without the blanks at both ends. -/
def trimChars (s : List Char) : List Char := trimBy isBlank s

/-- The text without the blanks at both ends. -/
def trim (s : String) : String := String.ofList (trimChars s.toList)

theorem toList_trim (s : String) : (trim s).toList = trimChars s.toList := by
  simp [trim]

/-- A text is trimmed if neither its first nor its last character is blank. -/
theorem trim_eq_self_iff {s : String} :
    trim s = s ↔ ∀ c, s.toList.head? = some c ∨ s.toList.getLast? = some c → isBlank c = false := by
  rw [← trimBy_eq_self_iff, ← String.toList_inj, toList_trim, trimChars]

theorem trim_trim (s : String) : trim (trim s) = trim s := by
  rw [trim_eq_self_iff, toList_trim]
  exact fun c hc => hc.elim head?_trimBy getLast?_trimBy

end DirGlob.Text
