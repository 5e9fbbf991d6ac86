import VisualEffects.Proofs.Colors

namespace VisualEffects

/-! Which digits are a color.

Two characters spell a byte if they are its digits in either case, where a plus sign in front counts as a zero.  So a
run of characters is a color if it is the color's digits but for case and signs, or, if the color is opaque, the digits
without the alpha.
-/

namespace Text.Hex

/-- What holds of each of the first 128 characters holds of every character in ASCII. -/
theorem of_every_ascii {P : Char → Prop} (every : ∀ n ∈ List.range 0x80, P (Char.ofNat n)) :
    ∀ c : Char, c.toNat < 0x80 → P c := by
  intro c ascii
  have here := every c.toNat (List.mem_range.mpr ascii)
  rwa [Char.ofNat_toNat] at here

theorem digit?_of_beyond_ascii {c : Char} (beyond : 0x80 ≤ c.toNat) : digit? c = none ∧ c.toLower = c := by
  have past (limit : Char) (ascii : limit.toNat < 0x80) : ¬ c ≤ limit := by
    rw [Char.le_def, UInt32.le_iff_toNat_le]
    exact Nat.not_le.mpr (Nat.lt_of_lt_of_le ascii beyond)
  constructor
  · rw [digit?, if_neg (past '9' (by decide) ·.2), if_neg (past 'f' (by decide) ·.2), if_neg (past 'F' (by decide) ·.2)]
  · exact dif_neg fun upper => past 'Z' (by decide) upper.2

/-- A character is a digit exactly when it is one in lower case. -/
theorem digit?_eq_some_iff {c : Char} {n : Nat} : digit? c = some n ↔ n < 16 ∧ c.toLower = Nat.digitChar n := by
  rcases Nat.lt_or_ge c.toNat 0x80 with ascii | beyond
  · have every : ∀ c : Char, c.toNat < 0x80 → (∀ n ∈ digit? c, n < 16 ∧ c.toLower = Nat.digitChar n) ∧
        ∀ n ∈ List.range 16, c.toLower = Nat.digitChar n → digit? c = some n :=
      of_every_ascii (by decide +kernel)
    obtain ⟨known, converse⟩ := every c ascii
    exact ⟨known n, fun ⟨below, lower⟩ => converse n (List.mem_range.mpr below) lower⟩
  · obtain ⟨noDigit, unchanged⟩ := digit?_of_beyond_ascii beyond
    rw [noDigit, unchanged]
    refine iff_of_false nofun ?_
    rintro ⟨below, rfl⟩
    exact Nat.not_lt.mpr beyond (Color.digitChar_solid below).2.1

theorem isSome_digit?_of_lower {c : Char} (lower : ∃ n < 16, c.toLower = Nat.digitChar n) : (digit? c).isSome := by
  obtain ⟨n, below, same⟩ := lower
  rw [digit?_eq_some_iff.mpr ⟨below, same⟩, Option.isSome_some]

/-- A digit is no sign, no mark and no blank. -/
theorem solid_of_digit {c : Char} (digit : (digit? c).isSome) :
    c ≠ '+' ∧ c ≠ '#' ∧ c.toNat < 0x80 ∧ isBlank c = false := by
  rcases Nat.lt_or_ge c.toNat 0x80 with ascii | beyond
  · have every : ∀ c : Char, c.toNat < 0x80 → (digit? c).isSome →
        c ≠ '+' ∧ c ≠ '#' ∧ c.toNat < 0x80 ∧ isBlank c = false :=
      of_every_ascii (by decide +kernel)
    exact every c ascii digit
  · rw [(digit?_of_beyond_ascii beyond).1] at digit
    cases digit

theorem value?_pair (first second : Char) :
    value? [first, second] =
      (digit? first).bind fun high => (digit? second).map fun low => high * 16 + low := by
  simp only [value?, List.foldlM_cons, List.foldlM_nil]
  cases digit? first <;> cases digit? second <;> simp

theorem value?_single (second : Char) : value? [second] = value? ['0', second] := by
  rw [value?_pair]
  simp only [value?, List.foldlM_cons, List.foldlM_nil]
  cases digit? second <;> rfl

/-- Two characters are a number exactly when they are its digits in lower case. -/
theorem value?_pair_eq_some_iff {first second : Char} {n : Nat} :
    value? [first, second] = some n ↔ n < 256 ∧ [first, second].map Char.toLower = digits 2 n := by
  have written : digits 2 n = [Nat.digitChar (n / 16 % 16), Nat.digitChar (n % 16)] := rfl
  simp only [value?_pair, Option.bind_eq_some_iff, Option.map_eq_some_iff, digit?_eq_some_iff, written, List.map_cons,
    List.map_nil, List.cons.injEq, and_true]
  constructor
  · rintro ⟨high, ⟨highBelow, highLower⟩, low, ⟨lowBelow, lowLower⟩, rfl⟩
    have parts : (high * 16 + low) / 16 % 16 = high ∧ (high * 16 + low) % 16 = low := by omega
    rw [parts.1, parts.2]
    exact ⟨by omega, highLower, lowLower⟩
  · rintro ⟨below, highLower, lowLower⟩
    exact ⟨_, ⟨by omega, highLower⟩, _, ⟨by omega, lowLower⟩, by omega⟩

theorem exists_of_mem_digits {c : Char} {width value : Nat} (member : c ∈ digits width value) :
    ∃ n < 16, c = Nat.digitChar n := by
  induction width generalizing value with
  | zero => cases member
  | succ width ih =>
      rcases List.mem_append.mp member with earlier | last
      · exact ih earlier
      · exact ⟨_, Nat.mod_lt _ (by decide), List.mem_singleton.mp last⟩

end Text.Hex

namespace Color

/-- Two characters spell a byte exactly when, with a zero for a sign in front, they are its digits in either case. -/
theorem byteOfPair_eq_ok {first second : Char} {byte : UInt8} :
    byteOfPair first second = .ok byte ↔
      [if first = '+' then '0' else first, second].map Char.toLower = Text.Hex.digits 2 byte.toNat := by
  have value : Text.Hex.value? (if first = '+' then [second] else [first, second]) =
      Text.Hex.value? [if first = '+' then '0' else first, second] := by
    split
    · exact Text.Hex.value?_single second
    · rfl
  rw [byteOfPair, value]
  constructor
  · intro read
    split at read
    · rename_i n spelled
      obtain ⟨below, lower⟩ := Text.Hex.value?_pair_eq_some_iff.mp spelled
      cases read
      rw [Nat.toUInt8, UInt8.toNat_ofNat_of_lt' below]
      exact lower
    · cases read
  · intro lower
    rw [Text.Hex.value?_pair_eq_some_iff.mpr ⟨byte.toNat_lt, lower⟩]
    simp only [Nat.toUInt8, UInt8.ofNat_toNat]

/-- Whether characters are the digits of a color in any case, all of them or, if it is opaque, all but its alpha. -/
def Notates (digits : List Char) (color : Color) : Prop :=
  digits.map Char.toLower = color.hexDigits ∨
    color.alpha = 255 ∧ digits.map Char.toLower = color.hexDigits.take 6

instance (digits : List Char) (color : Color) : Decidable (Notates digits color) :=
  inferInstanceAs (Decidable (_ ∨ _ ∧ _))

/-- Digits with a zero for each plus sign at the start of a byte. -/
def unsigned : List Char → List Char
  | first :: second :: rest => (if first = '+' then '0' else first) :: second :: unsigned rest
  | rest => rest

theorem length_unsigned (digits : List Char) : (unsigned digits).length = digits.length := by
  fun_induction unsigned digits with
  | case1 first second rest ih => simp only [List.length_cons, ih]
  | case2 => rfl

theorem unsigned_eq_self {digits : List Char} (noSign : '+' ∉ digits) : unsigned digits = digits := by
  fun_induction unsigned digits with
  | case1 first second rest ih =>
      simp only [List.mem_cons, not_or] at noSign
      rw [if_neg (Ne.symm noSign.1), ih noSign.2.2]
  | case2 => rfl

theorem length_hexDigits (color : Color) : color.hexDigits.length = 8 := rfl

theorem exists_of_mem_hexDigits {color : Color} {c : Char} (member : c ∈ color.hexDigits) :
    ∃ n < 16, c = Nat.digitChar n := by
  obtain ⟨_, _, written⟩ := List.mem_flatMap.mp member
  exact Text.Hex.exists_of_mem_digits written

theorem Notates.length {digits : List Char} {color : Color} (notates : Notates digits color) :
    digits.length = 6 ∨ digits.length = 8 := by
  rcases notates with whole | ⟨_, opaque_⟩
  · exact .inr (by rw [← List.length_map (f := Char.toLower), whole, length_hexDigits])
  · exact .inl (by rw [← List.length_map (f := Char.toLower), opaque_, List.length_take, length_hexDigits]; rfl)

theorem Notates.isSome_digit {digits : List Char} {color : Color} (notates : Notates digits color) :
    ∀ c ∈ digits, (Text.Hex.digit? c).isSome := by
  intro c member
  have lower : c.toLower ∈ color.hexDigits := by
    have mapped : c.toLower ∈ digits.map Char.toLower := List.mem_map_of_mem member
    rcases notates with whole | ⟨_, opaque_⟩
    · rwa [whole] at mapped
    · rw [opaque_] at mapped
      exact List.mem_of_mem_take mapped
  exact Text.Hex.isSome_digit?_of_lower (exists_of_mem_hexDigits lower)

theorem ascii_of_byteOfPair {first second : Char} {byte : UInt8} (read : byteOfPair first second = .ok byte) :
    first.toNat < 0x80 ∧ second.toNat < 0x80 := by
  have lower := byteOfPair_eq_ok.mp read
  have digit (c : Char) (member : c ∈ [if first = '+' then '0' else first, second]) : c.toNat < 0x80 := by
    have mapped := List.mem_map_of_mem (f := Char.toLower) member
    rw [lower] at mapped
    have isDigit := Text.Hex.isSome_digit?_of_lower (Text.Hex.exists_of_mem_digits mapped)
    exact (Text.Hex.solid_of_digit isDigit).2.2.1
  refine ⟨?_, digit second (by simp)⟩
  by_cases sign : first = '+'
  · subst sign
    decide
  · exact digit first (by simp [sign])

section Pairs

/-! Digits come in pairs, one for each byte.  A color has three bytes or four, and what is said of its digits is said of
the pairs one by one.
-/

/-- Pairs of characters one after the other. -/
def spread (pairs : List (Char × Char)) : List Char := pairs.flatMap fun pair => [pair.1, pair.2]

/-- The bytes that pairs of characters spell. -/
def bytesOf (pairs : List (Char × Char)) : Except HexFault (List UInt8) :=
  pairs.mapM fun pair => byteOfPair pair.1 pair.2

/-- The color of its bytes; without an alpha it is opaque. -/
def ofBytes : List UInt8 → Except HexFault Color
  | [red, green, blue] => .ok (solid red green blue)
  | [red, green, blue, alpha] => .ok ⟨red, green, blue, alpha⟩
  | _ => .error .wrongLength

theorem ofBytes_eq_ok {bytes : List UInt8} {color : Color} :
    ofBytes bytes = .ok color ↔
      bytes = [color.red, color.green, color.blue, color.alpha] ∨
        color.alpha = 255 ∧ bytes = [color.red, color.green, color.blue] := by
  obtain ⟨red, green, blue, alpha⟩ := color
  constructor
  · intro made
    unfold ofBytes at made
    split at made
    · cases made
      exact .inr ⟨rfl, rfl⟩
    · cases made
      exact .inl rfl
    · cases made
  · intro known
    rcases known with rfl | ⟨isOpaque, rfl⟩
    · rfl
    · cases isOpaque
      rfl

theorem notates_iff_bytes {digits : List Char} {color : Color} :
    Notates digits color ↔
      ∃ bytes, digits.map Char.toLower = bytes.flatMap (fun byte => Text.Hex.digits 2 byte.toNat) ∧
        ofBytes bytes = .ok color := by
  simp only [ofBytes_eq_ok]
  constructor
  · intro notates
    rcases notates with whole | ⟨isOpaque, lower⟩
    · exact ⟨[color.red, color.green, color.blue, color.alpha], whole, .inl rfl⟩
    · exact ⟨[color.red, color.green, color.blue], lower, .inr ⟨isOpaque, rfl⟩⟩
  · intro spelled
    obtain ⟨_, lower, rfl | ⟨isOpaque, rfl⟩⟩ := spelled
    · exact .inl lower
    · exact .inr ⟨isOpaque, lower⟩

variable {pairs : List (Char × Char)} {bytes : List UInt8} {color : Color}

theorem length_spread (pairs : List (Char × Char)) : (spread pairs).length = 2 * pairs.length := by
  induction pairs with
  | nil => rfl
  | cons _ rest ih => exact congrArg (· + 2) ih

theorem exists_spread (digits : List Char) (even : digits.length % 2 = 0) : ∃ pairs, digits = spread pairs :=
  match digits with
  | [] => ⟨[], rfl⟩
  | first :: second :: rest => by
      rw [List.length_cons, List.length_cons] at even
      obtain ⟨pairs, rfl⟩ := exists_spread rest (by omega)
      exact ⟨(first, second) :: pairs, rfl⟩

theorem bytesOf_cons_eq_ok {pair : Char × Char} :
    bytesOf (pair :: pairs) = .ok bytes ↔
      ∃ byte, byteOfPair pair.1 pair.2 = .ok byte ∧ ∃ others, bytesOf pairs = .ok others ∧ bytes = byte :: others := by
  simp only [bytesOf, List.mapM_cons, bind_eq_ok, pure, Except.pure, Except.ok.injEq, eq_comm (b := bytes)]

/-- Pairs spell bytes exactly when, with their signs as zeros, they are the digits of the bytes in either case. -/
theorem bytesOf_eq_ok :
    bytesOf pairs = .ok bytes ↔
      (unsigned (spread pairs)).map Char.toLower = bytes.flatMap fun byte => Text.Hex.digits 2 byte.toNat := by
  induction pairs generalizing bytes with
  | nil => cases bytes <;> simp [bytesOf, spread, unsigned, Text.Hex.digits, pure, Except.pure]
  | cons pair rest ih =>
      have split : (unsigned (spread (pair :: rest))).map Char.toLower =
          [if pair.1 = '+' then '0' else pair.1, pair.2].map Char.toLower ++ (unsigned (spread rest)).map Char.toLower :=
        rfl
      rw [bytesOf_cons_eq_ok, split]
      constructor
      · intro read
        obtain ⟨byte, here, others, there, rfl⟩ := read
        rw [byteOfPair_eq_ok.mp here, ih.mp there, List.flatMap_cons]
      · intro same
        cases bytes with
        | nil => cases same
        | cons byte others =>
            obtain ⟨here, there⟩ := List.append_inj same rfl
            exact ⟨byte, byteOfPair_eq_ok.mpr here, others, ih.mpr there, rfl⟩

theorem notates_spread :
    Notates (unsigned (spread pairs)) color ↔ ∃ bytes, bytesOf pairs = .ok bytes ∧ ofBytes bytes = .ok color := by
  simp only [notates_iff_bytes, bytesOf_eq_ok]

theorem ascii_of_bytesOf (read : bytesOf pairs = .ok bytes) : (spread pairs).all (·.toNat < 0x80) = true := by
  induction pairs generalizing bytes with
  | nil => rfl
  | cons pair rest ih =>
      obtain ⟨_, here, _, there, _⟩ := bytesOf_cons_eq_ok.mp read
      have whole : spread (pair :: rest) = pair.1 :: pair.2 :: spread rest := rfl
      simp [whole, ascii_of_byteOfPair here, ih there]

theorem ofDigits_spread (known : pairs.length = 3 ∨ pairs.length = 4) :
    ofDigits (spread pairs) = .ok color ↔ (bytesOf pairs >>= ofBytes) = .ok color := by
  unfold ofDigits
  split
  · rename_i beyond
    refine iff_of_false nofun fun read => ?_
    obtain ⟨_, spelled, _⟩ := bind_eq_ok.mp read
    rw [ascii_of_bytesOf spelled] at beyond
    cases beyond
  · match pairs, known with
    | [_, _, _], _ | [_, _, _, _], _ =>
        simp only [bytesOf, List.mapM_cons, List.mapM_nil, bind_assoc, pure_bind]
        rfl

end Pairs

theorem length_of_ofDigits {digits : List Char} {color : Color} (read : ofDigits digits = .ok color) :
    digits.length = 6 ∨ digits.length = 8 := by
  unfold ofDigits at read
  split at read
  · cases read
  · split at read
    · exact .inl rfl
    · exact .inr rfl
    · cases read

/-- Digits are read as a color exactly when they notate it once their signs are zeros. -/
theorem ofDigits_eq_ok {digits : List Char} {color : Color} :
    ofDigits digits = .ok color ↔ Notates (unsigned digits) color := by
  by_cases length : digits.length = 6 ∨ digits.length = 8
  · obtain ⟨pairs, rfl⟩ := exists_spread digits (by omega)
    have known : pairs.length = 3 ∨ pairs.length = 4 := by
      rw [length_spread] at length
      omega
    rw [ofDigits_spread known, bind_eq_ok, notates_spread]
  · refine iff_of_false (fun read => length (length_of_ofDigits read)) fun notates => length ?_
    rw [← length_unsigned]
    exact notates.length

theorem not_mem_of_notates {digits : List Char} {color : Color} (notates : Notates digits color) : '+' ∉ digits := by
  intro sign
  cases notates.isSome_digit '+' sign

theorem ofDigits_of_notates {digits : List Char} {color : Color} (notates : Notates digits color) :
    ofDigits digits = .ok color := by
  rw [ofDigits_eq_ok, unsigned_eq_self (not_mem_of_notates notates)]
  exact notates

end Color

end VisualEffects
