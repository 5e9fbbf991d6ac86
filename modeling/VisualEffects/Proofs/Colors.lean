import VisualEffects.Color

namespace VisualEffects.Color

/-! Written colors are read back.

A byte is two digits, a color four bytes, and nothing in them is mistaken for a blank, a sign or a `#`.
-/

theorem digitChar_solid {n : Nat} (below : n < 16) :
    Nat.digitChar n ≠ '+' ∧ (Nat.digitChar n).toNat < 0x80 ∧ Text.isBlank (Nat.digitChar n) = false := by
  have every : ∀ m ∈ List.range 16,
      Nat.digitChar m ≠ '+' ∧ (Nat.digitChar m).toNat < 0x80 ∧ Text.isBlank (Nat.digitChar m) = false := by
    decide
  exact every n (List.mem_range.mpr below)

/-- The two digits of a byte, and that they spell it. -/
theorem byteOfPair_digits (byte : UInt8) : ∃ high < 16, ∃ low < 16,
    Text.Hex.digits 2 byte.toNat = [Nat.digitChar high, Nat.digitChar low] ∧
      byteOfPair (Nat.digitChar high) (Nat.digitChar low) = .ok byte := by
  have high : byte.toNat / 16 % 16 < 16 := Nat.mod_lt _ (by decide)
  have low : byte.toNat % 16 < 16 := Nat.mod_lt _ (by decide)
  have value : Text.Hex.value? [Nat.digitChar (byte.toNat / 16 % 16), Nat.digitChar (byte.toNat % 16)] =
      some (byte.toNat % 256) := Text.Hex.value?_digits 2 byte.toNat
  refine ⟨_, high, _, low, rfl, ?_⟩
  simp only [byteOfPair, (digitChar_solid high).1, if_false, value, Nat.mod_eq_of_lt byte.toNat_lt]
  rw [Nat.toUInt8, UInt8.ofNat_toNat]

theorem digitsOf_toHex (color : Color) (solid : ∀ c ∈ color.hexDigits, Text.isBlank c = false) :
    digitsOf color.toHex.toList = color.hexDigits := by
  have whole : ∀ c ∈ '#' :: color.hexDigits, Text.isBlank c = false := List.forall_mem_cons.mpr ⟨by decide, solid⟩
  have trimmed : Text.trimmed ([] ++ '#' :: color.hexDigits ++ []) = '#' :: color.hexDigits :=
    Text.trimmed_surrounded (List.forall_mem_nil _) (List.forall_mem_nil _)
      (fun c first => whole c (List.mem_of_head? first)) (fun c last => whole c (List.mem_of_getLast? last))
      (List.cons_ne_nil _ _)
  rw [List.nil_append, List.append_nil] at trimmed
  rw [toHex, String.toList_ofList]
  simp only [digitsOf, trimmed]

/-- A color is read back from its digits. -/
theorem ofHex_toHex (color : Color) : ofHex color.toHex = .ok color := by
  obtain ⟨r₁, _, r₂, _, red, readRed⟩ := byteOfPair_digits color.red
  obtain ⟨g₁, _, g₂, _, green, readGreen⟩ := byteOfPair_digits color.green
  obtain ⟨b₁, _, b₂, _, blue, readBlue⟩ := byteOfPair_digits color.blue
  obtain ⟨a₁, _, a₂, _, alpha, readAlpha⟩ := byteOfPair_digits color.alpha
  have digits : color.hexDigits = [r₁, r₂, g₁, g₂, b₁, b₂, a₁, a₂].map Nat.digitChar := by
    simp only [hexDigits, List.flatMap_cons, List.flatMap_nil, red, green, blue, alpha, List.cons_append,
      List.nil_append, List.map_cons, List.map_nil]
  have solid : ∀ c ∈ color.hexDigits, Text.isBlank c = false := by
    rw [digits]
    simp [digitChar_solid, *]
  have ascii : ([r₁, r₂, g₁, g₂, b₁, b₂, a₁, a₂].map Nat.digitChar).all (·.toNat < 0x80) = true := by
    simp [digitChar_solid, *]
  rw [ofHex, digitsOf_toHex color solid, digits]
  unfold ofDigits
  rw [ascii, Bool.not_true, if_neg Bool.false_ne_true]
  simp only [List.map_cons, List.map_nil, readRed, readGreen, readBlue, readAlpha, bind, Except.bind, pure,
    Except.pure]

theorem readValue_toValue (color : Color) : readValue color.toValue = .ok color := by
  rw [toValue, readValue, ofHex_toHex]
  rfl

end VisualEffects.Color
