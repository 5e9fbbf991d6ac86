namespace VisualEffects.Text.Hex

/-! Hexadecimal digits: the value of one digit in either case, and lowercase digits of a fixed width.

A value below `16 ^ width` is read back from `digits width value` digit by digit.
-/

/-- The value of a hexadecimal digit, in either case. -/
def digit? (c : Char) : Option Nat :=
  if '0' ≤ c ∧ c ≤ '9' then some (c.toNat - '0'.toNat)
  else if 'a' ≤ c ∧ c ≤ 'f' then some (c.toNat - 'a'.toNat + 10)
  else if 'A' ≤ c ∧ c ≤ 'F' then some (c.toNat - 'A'.toNat + 10)
  else none

/-- The last `width` hexadecimal digits of `value`, lowercase, most significant first. -/
def digits : Nat → Nat → List Char
  | 0, _ => []
  | width + 1, value => digits width (value / 16) ++ [Nat.digitChar (value % 16)]

/-- The value of a run of hexadecimal digits, or `none` when some character is no digit. -/
def value? (cs : List Char) : Option Nat :=
  cs.foldlM (fun total c => (digit? c).map (total * 16 + ·)) 0

theorem digit?_digitChar {n : Nat} (below : n < 16) : digit? (Nat.digitChar n) = some n := by
  have every : ∀ m ∈ List.range 16, digit? (Nat.digitChar m) = some m := by decide
  exact every n (List.mem_range.mpr below)

theorem length_digits (width value : Nat) : (digits width value).length = width := by
  induction width generalizing value with
  | zero => rfl
  | succ width ih => simp [digits, ih]

theorem value?_digits (width value : Nat) : value? (digits width value) = some (value % Nat.pow 16 width) := by
  induction width generalizing value with
  | zero => simp [value?, digits, Nat.mod_one]
  | succ width ih =>
      have head := ih (value / 16)
      simp only [value?] at head
      have last : value % 16 < 16 := Nat.mod_lt _ (by decide)
      simp only [value?, digits, List.foldlM_append, head, List.foldlM_cons, List.foldlM_nil,
        digit?_digitChar last, Option.map_some, Option.bind_eq_bind, Option.bind_some, Option.pure_def,
        Option.some.injEq]
      have power : Nat.pow 16 (width + 1) = 16 * Nat.pow 16 width := Nat.mul_comm ..
      rw [power, Nat.mod_mul, Nat.mul_comm, Nat.add_comm]

end VisualEffects.Text.Hex
