namespace VisualEffects.Text

/-! Blank characters, and text without the blanks around it.

The blanks are the 25 characters with the Unicode property `White_Space`; core's `Char.isWhitespace`
knows only four of them.
-/

/-- Whether a character has the Unicode property `White_Space`. -/
def isBlank (c : Char) : Bool :=
  let n := c.toNat
  (0x09 ≤ n && n ≤ 0x0d) || n == 0x20 || n == 0x85 || n == 0xa0 || n == 0x1680 ||
  (0x2000 ≤ n && n ≤ 0x200a) || n == 0x2028 || n == 0x2029 || n == 0x202f || n == 0x205f || n == 0x3000

/-- A text without the blanks at either end. -/
def trimmed (cs : List Char) : List Char :=
  ((cs.dropWhile isBlank).reverse.dropWhile isBlank).reverse

private theorem dropWhile_eq_self {cs : List Char} (solid : ∀ c ∈ cs.head?, isBlank c = false) :
    cs.dropWhile isBlank = cs := by
  cases cs with
  | nil => rfl
  | cons c rest => simp [solid c (by simp)]

private theorem dropWhile_append {blanks cs : List Char} (blank : ∀ c ∈ blanks, isBlank c = true) :
    (blanks ++ cs).dropWhile isBlank = cs.dropWhile isBlank := by
  induction blanks with
  | nil => rfl
  | cons b rest ih =>
      simp [blank b (by simp), ih fun c member => blank c (by simp [member])]

/-- Blanks on either side of a text that neither starts nor ends with one are exactly what `trimmed`
takes away. -/
theorem trimmed_surrounded {before cs after : List Char}
    (beforeBlank : ∀ c ∈ before, isBlank c = true) (afterBlank : ∀ c ∈ after, isBlank c = true)
    (first : ∀ c ∈ cs.head?, isBlank c = false) (last : ∀ c ∈ cs.getLast?, isBlank c = false)
    (nonempty : cs ≠ []) : trimmed (before ++ cs ++ after) = cs := by
  have front : (before ++ cs ++ after).dropWhile isBlank = cs ++ after := by
    rw [List.append_assoc, dropWhile_append beforeBlank]
    apply dropWhile_eq_self
    cases cs with
    | nil => exact absurd rfl nonempty
    | cons c rest => simpa using first
  rw [trimmed, front, List.reverse_append, dropWhile_append (by simpa using afterBlank),
    dropWhile_eq_self (by simpa [List.head?_reverse] using last), List.reverse_reverse]

end VisualEffects.Text
