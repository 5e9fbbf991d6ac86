import VisualEffects.Json.Numeral
import VisualEffects.Proofs.Digits

namespace VisualEffects

/-! Written numbers are numerals.

Whatever is written for a number that is finite is a numeral to its last character, and no text that can follow
a number in a document goes on with it.  What the numeral is read as is another matter: a reader may round.
A natural number of 64 bits is read as it was.
-/

namespace Decimal.Style

theorem isDigit_naturalDigits {n : Nat} {c : Char} (member : c ∈ naturalDigits n) : c.isDigit = true :=
  Nat.isDigit_of_mem_toDigits (by decide) (by decide) member

/-- Zeros are not written in front of a number. -/
theorem head_naturalDigits {n : Nat} (nonzero : n ≠ 0) : (naturalDigits n).head? ≠ some '0' := by
  induction n using Nat.strongRecOn with
  | ind n ih =>
      unfold naturalDigits
      by_cases single : n < 10
      · rw [Nat.toDigits_of_lt_base single]
        have every : ∀ m ∈ List.range 10, m ≠ 0 → [m.digitChar].head? ≠ some '0' := by decide
        exact every n (List.mem_range.mpr single) nonzero
      · have ten : 10 ≤ n := Nat.le_of_not_lt single
        have lead := ih (n / 10) (by omega) (by omega)
        obtain ⟨c, cs, same⟩ := List.exists_cons_of_ne_nil (Nat.toDigits_ne_nil (n := n / 10) (b := 10))
        rw [naturalDigits, same] at lead
        rw [Nat.toDigits_of_base_le (by decide) ten, same]
        exact lead

theorem length_naturalDigits_of_zero {n : Nat} (first : (naturalDigits n).head? = some '0') :
    (naturalDigits n).length = 1 := by
  by_cases zero : n = 0
  · rw [zero]
    rfl
  · exact absurd first (head_naturalDigits zero)

end Decimal.Style

namespace Json

namespace Numeral

open Decimal.Style (naturalDigits integerDigits)

/-- A text that does not go on with a numeral. -/
def Stops (rest : List Char) : Prop := ∀ c ∈ rest.head?, digit? c = none ∧ c ≠ '.' ∧ c ≠ 'e' ∧ c ≠ 'E'

theorem stops_nil : Stops [] := by rintro _ ⟨⟩

theorem stops_cons {c : Char} (ends : digit? c = none ∧ c ≠ '.' ∧ c ≠ 'e' ∧ c ≠ 'E') (rest : List Char) :
    Stops (c :: rest) := by
  rintro _ ⟨⟩
  exact ends

theorem digit?_of_isDigit {c : Char} (digit : c.isDigit = true) : digit? c = some (c.toNat - '0'.toNat) := by
  simp only [Char.isDigit, Bool.and_eq_true, decide_eq_true_eq] at digit
  exact if_pos digit

theorem eq_zero_of_digit? {c : Char} (zero : digit? c = some 0) : c = '0' := by
  unfold digit? at zero
  split at zero
  · rename_i range
    have low : '0'.toNat ≤ c.toNat := range.1
    simp only [Option.some.injEq] at zero
    exact Char.toNat_inj.mp (by omega)
  · cases zero

theorem le_ofDigitChars (cs : List Char) (n : Nat) : n ≤ Nat.ofDigitChars 10 cs n := by
  induction cs generalizing n with
  | nil => exact Nat.le_refl n
  | cons c cs ih =>
      rw [Nat.ofDigitChars_cons]
      exact Nat.le_trans (by omega) (ih (10 * n + (c.toNat - '0'.toNat)))

theorem digits_append {rest : List Char} (stops : ∀ c ∈ rest.head?, digit? c = none) (cs : List Char) :
    digits (cs ++ rest) = ((digits cs).1, (digits cs).2 ++ rest) := by
  induction cs with
  | nil =>
      cases rest with
      | nil => rfl
      | cons c rest => simp [digits, stops c rfl]
  | cons c cs ih =>
      simp only [List.cons_append, digits, ih]
      cases digit? c <;> rfl

/-- Digits whose number fits are taken into the significand to the last one. -/
theorem absorb_digits {cs : List Char} (all : ∀ c ∈ cs, c.isDigit = true) {significand : Nat}
    (fits : Nat.ofDigitChars 10 cs significand < significandLimit) :
    absorb (digits cs).1 significand = (Nat.ofDigitChars 10 cs significand, []) := by
  induction cs generalizing significand with
  | nil => rfl
  | cons c cs ih =>
      obtain ⟨digit, others⟩ := List.forall_mem_cons.mp all
      rw [Nat.ofDigitChars_cons, Nat.mul_comm] at fits ⊢
      have first := Nat.lt_of_le_of_lt (le_ofDigitChars cs _) fits
      rw [digits, digit?_of_isDigit digit]
      simp only [absorb, first, if_true]
      exact ih others fits

theorem digits_of_isDigit {cs : List Char} (all : ∀ c ∈ cs, c.isDigit = true) :
    (digits cs).2 = [] ∧ (digits cs).1.length = cs.length := by
  induction cs with
  | nil => exact ⟨rfl, rfl⟩
  | cons c cs ih =>
      obtain ⟨nothing, count⟩ := ih fun other member => all other (List.mem_cons_of_mem c member)
      simp only [digits, digit?_of_isDigit (all c List.mem_cons_self), nothing, List.length_cons, count, and_self]

section
variable {cs rest : List Char} (all : ∀ c ∈ cs, c.isDigit = true) (stops : ∀ c ∈ rest.head?, digit? c = none)
include all

theorem digits_ne_nil (nonempty : cs ≠ []) : (digits cs).1 ≠ [] := by
  intro none
  have count := (digits_of_isDigit all).2
  rw [none] at count
  exact nonempty (List.eq_nil_of_length_eq_zero count.symm)

include stops

theorem digits_run : digits (cs ++ rest) = ((digits cs).1, rest) := by
  rw [digits_append stops, (digits_of_isDigit all).1, List.nil_append]

/-- Digits are a whole part unless they start with a zero that does not stand alone. -/
theorem wholePart_run (nonempty : cs ≠ []) (lead : cs.head? = some '0' → cs.length = 1) :
    wholePart (cs ++ rest) = .ok ((digits cs).1, rest) := by
  have found := digits_ne_nil all nonempty
  have count := (digits_of_isDigit all).2
  have zero (value : Nat) (values : List Nat) (known : (digits cs).1 = value :: values) (none : value = 0) :
      values = [] := by
    cases cs with
    | nil => cases known
    | cons c others =>
        simp only [digits, digit?_of_isDigit (all c List.mem_cons_self), List.cons.injEq] at known
        have digit := digit?_of_isDigit (all c List.mem_cons_self)
        rw [known.1, none] at digit
        have single := lead (by rw [eq_zero_of_digit? digit]; rfl)
        rw [List.length_eq_one_iff] at single
        obtain ⟨_, same⟩ := single
        cases same
        exact known.2.symm
  simp only [wholePart, digits_run all stops]
  generalize (digits cs).1 = values at found count zero
  cases values with
  | nil => exact absurd rfl found
  | cons first others =>
      cases first with
      | zero =>
          cases zero 0 others rfl rfl
          rfl
      | succ => rfl

theorem fractionPart_run (nonempty : cs ≠ []) :
    fractionPart ('.' :: (cs ++ rest)) = .ok (some (digits cs).1, rest) := by
  have found := digits_ne_nil all nonempty
  simp only [fractionPart, digits_run all stops]

theorem exponentDigits_run (nonempty : cs ≠ []) {signed : List Char} {negative : Bool}
    (sign : exponentSign signed = (negative, cs ++ rest)) :
    exponentDigits signed = .ok (some (negative, (digits cs).1), rest) := by
  have found := digits_ne_nil all nonempty
  simp only [exponentDigits, sign, digits_run all stops]

end

theorem exponentSign_digits {cs rest : List Char} (all : ∀ c ∈ cs, c.isDigit = true) (nonempty : cs ≠ []) :
    exponentSign (cs ++ rest) = (false, cs ++ rest) := by
  unfold exponentSign
  split
  · rename_i same
    cases cs with
    | nil => exact absurd rfl nonempty
    | cons c others =>
        cases same
        exact nomatch all '-' List.mem_cons_self
  · rename_i same
    cases cs with
    | nil => exact absurd rfl nonempty
    | cons c others =>
        cases same
        exact nomatch all '+' List.mem_cons_self
  · rfl

theorem exponentPart_run (sign : Bool) (n : Int) : ∃ found, ∀ rest, (∀ c ∈ rest.head?, digit? c = none) →
    exponentPart ('e' :: (integerDigits sign n ++ rest)) = .ok (some found, rest) := by
  have digit (m : Nat) : ∀ c ∈ naturalDigits m, c.isDigit = true := fun _ => Decimal.Style.isDigit_naturalDigits
  have nonempty (m : Nat) : naturalDigits m ≠ [] := Nat.toDigits_ne_nil
  unfold integerDigits
  split
  · exact ⟨_, fun rest stops => exponentDigits_run (digit _) stops (nonempty (-n).toNat) rfl⟩
  · cases sign with
    | true => exact ⟨_, fun rest stops => exponentDigits_run (digit _) stops (nonempty n.toNat) rfl⟩
    | false =>
        exact ⟨_, fun rest stops => exponentDigits_run (digit _) stops (nonempty n.toNat)
          (exponentSign_digits (digit _) (nonempty _))⟩

theorem fractionPart_none {rest : List Char} (stops : ∀ c ∈ rest.head?, c ≠ '.') :
    fractionPart rest = .ok (none, rest) := by
  unfold fractionPart
  split
  · exact absurd rfl (stops '.' rfl)
  · rfl

theorem exponentPart_none {rest : List Char} (stops : ∀ c ∈ rest.head?, c ≠ 'e' ∧ c ≠ 'E') :
    exponentPart rest = .ok (none, rest) := by
  unfold exponentPart
  split
  · exact absurd rfl (stops 'e' rfl).1
  · exact absurd rfl (stops 'E' rfl).2
  · rfl

/-- A text that is a numeral without its sign to the last character, whatever follows that does not go on with it. -/
def Spelled (cs : List Char) : Prop :=
  ∃ numeral : Numeral, ∀ rest, Stops rest → ∀ negative,
    nextUnsigned negative (cs ++ rest) = .ok ({ numeral with negative }, rest)

theorem nextUnsigned_of_parts {cs afterWhole afterFraction rest : List Char} {whole : List Nat}
    {fraction : Option (List Nat)} {exponent : Option (Bool × List Nat)}
    (first : wholePart cs = .ok (whole, afterWhole))
    (second : fractionPart afterWhole = .ok (fraction, afterFraction))
    (third : exponentPart afterFraction = .ok (exponent, rest)) (negative : Bool) :
    nextUnsigned negative cs = .ok (⟨negative, whole, fraction, exponent⟩, rest) := by
  simp only [nextUnsigned, first, second, third, bind, Except.bind, pure, Except.pure]

section
variable {whole fraction : List Char} (wholeDigits : ∀ c ∈ whole, c.isDigit = true) (nonempty : whole ≠ [])
  (lead : whole.head? = some '0' → whole.length = 1)
include wholeDigits nonempty lead

theorem nextUnsigned_whole {rest : List Char} (stops : Stops rest) (negative : Bool) :
    nextUnsigned negative (whole ++ rest) = .ok (⟨negative, (digits whole).1, none, none⟩, rest) :=
  nextUnsigned_of_parts (wholePart_run wholeDigits (fun c first => (stops c first).1) nonempty lead)
    (fractionPart_none fun c first => (stops c first).2.1) (exponentPart_none fun c first => (stops c first).2.2)
    negative

theorem spelled_whole : Spelled whole :=
  ⟨⟨false, (digits whole).1, none, none⟩, fun _ stops => nextUnsigned_whole wholeDigits nonempty lead stops⟩

theorem spelled_fraction (fractionDigits : ∀ c ∈ fraction, c.isDigit = true) (some : fraction ≠ []) :
    Spelled (whole ++ '.' :: fraction) := by
  refine ⟨⟨false, (digits whole).1, .some (digits fraction).1, none⟩, ?_⟩
  intro rest stops
  rw [List.append_assoc]
  exact nextUnsigned_of_parts (wholePart_run wholeDigits (by rintro _ ⟨⟩; rfl) nonempty lead)
    (fractionPart_run fractionDigits (fun c first => (stops c first).1) some)
    (exponentPart_none fun c first => (stops c first).2.2)

theorem spelled_exponent (fractionDigits : ∀ c ∈ fraction, c.isDigit = true) (sign : Bool) (n : Int) :
    Spelled (whole ++ (if fraction.isEmpty then [] else '.' :: fraction) ++ 'e' :: integerDigits sign n) := by
  obtain ⟨found, exponent⟩ := exponentPart_run sign n
  have last (rest : List Char) (stops : Stops rest) := exponent rest fun c first => (stops c first).1
  cases fraction with
  | nil =>
      refine ⟨⟨false, (digits whole).1, none, some found⟩, ?_⟩
      intro rest stops
      rw [List.isEmpty_nil, if_pos rfl, List.append_nil, List.append_assoc]
      exact nextUnsigned_of_parts (wholePart_run wholeDigits (by rintro _ ⟨⟩; rfl) nonempty lead)
        (fractionPart_none (by rintro _ ⟨⟩; decide)) (last rest stops)
  | cons c others =>
      refine ⟨⟨false, (digits whole).1, some (digits (c :: others)).1, some found⟩, ?_⟩
      intro rest stops
      rw [List.isEmpty_cons, if_neg Bool.false_ne_true, List.append_assoc, List.append_assoc]
      exact nextUnsigned_of_parts (wholePart_run wholeDigits (by rintro _ ⟨⟩; rfl) nonempty lead)
        (fractionPart_run fractionDigits (by rintro _ ⟨⟩; rfl) (List.cons_ne_nil _ _)) (last rest stops)

end

theorem isDigit_zeros (count : Nat) : ∀ c ∈ List.replicate count '0', c.isDigit = true := by
  intro c member
  rw [List.eq_of_mem_replicate member]
  rfl

section
variable (n : Nat)

theorem spelled_padded {zeros : Nat} (counts : n = 0 → zeros = 0) :
    Spelled (naturalDigits n ++ List.replicate zeros '0' ++ ['.', '0']) := by
  have nonempty : naturalDigits n ≠ [] := Nat.toDigits_ne_nil
  have whole : ∀ c ∈ naturalDigits n ++ List.replicate zeros '0', c.isDigit = true :=
    List.forall_mem_append.mpr ⟨fun _ => Decimal.Style.isDigit_naturalDigits, isDigit_zeros zeros⟩
  refine spelled_fraction whole (List.append_ne_nil_of_left_ne_nil nonempty _) ?_ (isDigit_zeros 1) (List.cons_ne_nil _ _)
  -- the first digit is a zero only when the number is, and then no zeros follow it
  intro first
  rw [List.head?_append, List.head?_eq_some_head nonempty, Option.some_or, ← List.head?_eq_some_head nonempty]
    at first
  by_cases none : n = 0
  · rw [counts none, none]
    rfl
  · exact absurd first (Decimal.Style.head_naturalDigits none)

theorem spelled_pointed (nonzero : n ≠ 0) {place : Nat} (positive : 0 < place)
    (inside : place < (naturalDigits n).length) :
    Spelled ((naturalDigits n).take place ++ '.' :: (naturalDigits n).drop place) := by
  refine spelled_fraction (fun c member => Decimal.Style.isDigit_naturalDigits (List.mem_of_mem_take member)) ?_ ?_
    (fun c member => Decimal.Style.isDigit_naturalDigits (List.mem_of_mem_drop member)) ?_
  · exact List.ne_nil_of_length_pos (by rw [List.length_take]; omega)
  · intro first
    rw [List.head?_take, if_neg (Nat.ne_of_gt positive)] at first
    exact absurd first (Decimal.Style.head_naturalDigits nonzero)
  · exact List.ne_nil_of_length_pos (by rw [List.length_drop]; omega)

theorem spelled_below (zeros : Nat) : Spelled ('0' :: '.' :: List.replicate zeros '0' ++ naturalDigits n) :=
  spelled_fraction (isDigit_zeros 1) (List.cons_ne_nil _ _) (fun _ => rfl)
    (List.forall_mem_append.mpr ⟨isDigit_zeros zeros, fun _ => Decimal.Style.isDigit_naturalDigits⟩)
    (List.append_ne_nil_of_right_ne_nil _ Nat.toDigits_ne_nil)

end

/-- A decimal is laid out as a numeral, unless zeros would follow the digit 0. -/
theorem spelled_layOut (style : Decimal.Style) {decimal : Decimal}
    (counts : decimal.digits = 0 → decimal.exponent ≤ 0) : Spelled (style.layOut decimal) := by
  have positive : 0 < (naturalDigits decimal.digits).length := Nat.length_toDigits_pos
  unfold Decimal.Style.layOut
  dsimp only
  split
  · split
    -- in place: with zeros up to the point, with the point among the digits, or with zeros after the point
    · exact spelled_padded _ fun none => Int.toNat_of_nonpos (counts none)
    · split
      · rename_i left among
        have nonzero : decimal.digits ≠ 0 := by
          intro none
          have single : (naturalDigits decimal.digits).length = 1 := by
            rw [none]
            rfl
          omega
        exact spelled_pointed _ nonzero (by omega) (by omega)
      · exact spelled_below _ _
  · have first : ((naturalDigits decimal.digits).take 1).length = 1 := by
      rw [List.length_take]
      omega
    exact spelled_exponent (fun c member => Decimal.Style.isDigit_naturalDigits (List.mem_of_mem_take member))
      (List.ne_nil_of_length_pos (by omega)) (fun _ => first)
      (fun c member => Decimal.Style.isDigit_naturalDigits (List.mem_of_mem_drop member)) _ _

theorem starts_of_nextUnsigned {negative : Bool} {cs rest : List Char} {numeral : Numeral}
    (read : nextUnsigned negative cs = .ok (numeral, rest)) :
    ∃ c others, cs = c :: others ∧ '0' ≤ c ∧ c ≤ '9' := by
  cases cs with
  | nil => cases read
  | cons c others =>
      refine ⟨c, others, rfl, ?_⟩
      by_contra range
      have none : digit? c = none := if_neg range
      simp only [nextUnsigned, wholePart, digits, none, bind, Except.bind] at read
      cases read

theorem next_of_nextUnsigned {cs rest : List Char} {numeral : Numeral}
    (read : nextUnsigned false cs = .ok (numeral, rest)) : next cs = .ok (numeral, rest) := by
  obtain ⟨c, others, rfl, low, _⟩ := starts_of_nextUnsigned read
  unfold next
  split
  · rename_i same
    cases same
    exact absurd low (by decide)
  · exact read

theorem starts_of_next {cs rest : List Char} {numeral : Numeral} (read : next cs = .ok (numeral, rest)) :
    ∃ c others, cs = c :: others ∧ (c = '-' ∨ ('0' ≤ c ∧ c ≤ '9')) := by
  unfold next at read
  split at read
  · exact ⟨_, _, rfl, .inl rfl⟩
  · obtain ⟨c, others, same, digit⟩ := starts_of_nextUnsigned read
    exact ⟨c, others, same, .inr digit⟩

end Numeral

namespace Number

open Numeral (Stops)
open Decimal.Style (naturalDigits)

/-- Whether a number is written with digits. -/
def IsWritten : Number → Prop
  | integer _ => True
  | real x => x.isFinite = true

/-- What the text of a number is read as. -/
def reread (number : Number) : Except Fault Number :=
  match Numeral.next number.render with
  | .ok (numeral, []) => numeral.value
  | _ => .error .badNumber

theorem size_of_isFinite {x : Float} (finite : x.isFinite = true) : x.isNaN = false ∧ x.isInf = false := by
  simp only [Float.isFinite, Float.Model.isFinite, Float.isNaN, Float.Model.isNaN, Float.isInf, Float.Model.isInf] at *
  generalize x.toModel.unpack = unpacked at finite ⊢
  cases unpacked with
  | notANumber => cases finite
  | infinity sign => cases finite
  | zero sign => exact ⟨rfl, rfl⟩
  | finite sign mantissa exponent => exact ⟨rfl, rfl⟩

theorem next_integerDigits (value : Int) : ∃ numeral : Numeral, ∀ rest, Stops rest →
    Numeral.next (Decimal.Style.integerDigits false value ++ rest) = .ok (numeral, rest) := by
  have spelled (n : Nat) : Numeral.Spelled (naturalDigits n) :=
    Numeral.spelled_whole (fun _ => Decimal.Style.isDigit_naturalDigits) Nat.toDigits_ne_nil
      Decimal.Style.length_naturalDigits_of_zero
  unfold Decimal.Style.integerDigits
  split
  · obtain ⟨numeral, read⟩ := spelled (-value).toNat
    exact ⟨_, fun rest stops => read rest stops true⟩
  · obtain ⟨numeral, read⟩ := spelled value.toNat
    exact ⟨_, fun rest stops => Numeral.next_of_nextUnsigned (read rest stops false)⟩

theorem next_renderStyle (style : Decimal.Style) {x : Float} (finite : x.isFinite = true) :
    ∃ numeral : Numeral, ∀ rest, Stops rest → Numeral.next (style.render x ++ rest) = .ok (numeral, rest) := by
  have size := size_of_isFinite finite
  have counts : ((Decimal.Binary.ofFloat x).shortest style.tie).digits = 0 →
      ((Decimal.Binary.ofFloat x).shortest style.tie).exponent ≤ 0 := by
    intro none
    by_cases zero : (Decimal.Binary.ofFloat x).significand = 0
    · rw [Decimal.Binary.shortest, if_pos zero]
    · exact absurd none (Decimal.Binary.shortest_digits_ne_zero zero _)
  obtain ⟨numeral, read⟩ := Numeral.spelled_layOut style counts
  simp only [Decimal.Style.render, size, Bool.false_eq_true, if_false]
  split
  · exact ⟨_, fun rest stops => Numeral.next_of_nextUnsigned (read rest stops false)⟩
  · exact ⟨_, fun rest stops => read rest stops true⟩

/-- A written number is a numeral from its first character to its last. -/
theorem next_render {number : Number} (written : number.IsWritten) {rest : List Char} (stops : Stops rest) :
    ∃ numeral : Numeral, Numeral.next (number.render ++ rest) = .ok (numeral, rest) ∧
      number.reread = numeral.value := by
  obtain ⟨numeral, read⟩ : ∃ numeral : Numeral, ∀ rest, Stops rest →
      Numeral.next (number.render ++ rest) = .ok (numeral, rest) := by
    cases number with
    | integer value => exact next_integerDigits value
    | real x => exact next_renderStyle numberStyle written
  have whole := read [] Numeral.stops_nil
  rw [List.append_nil] at whole
  exact ⟨numeral, read rest stops, by simp only [reread, whole]⟩

theorem render_natural (n : Nat) : (integer n).render = naturalDigits n := by
  rw [render, Decimal.Style.integerDigits, if_neg (Int.not_lt.mpr (Int.natCast_nonneg n)),
    if_neg Bool.false_ne_true, Int.toNat_natCast]

theorem reread_natural {n : Nat} (fits : n < UInt64.size) : (integer n).reread = .ok (integer n) := by
  have digit : ∀ c ∈ naturalDigits n, c.isDigit = true := fun _ => Decimal.Style.isDigit_naturalDigits
  have whole :
      Numeral.next (naturalDigits n) = .ok (⟨false, (Numeral.digits (naturalDigits n)).1, none, none⟩, []) := by
    have unsigned := Numeral.nextUnsigned_whole digit Nat.toDigits_ne_nil Decimal.Style.length_naturalDigits_of_zero
      Numeral.stops_nil false
    rw [List.append_nil] at unsigned
    exact Numeral.next_of_nextUnsigned unsigned
  have number : Nat.ofDigitChars 10 (naturalDigits n) 0 = n := Nat.ofDigitChars_toDigits (by decide) (by decide)
  have taken := Numeral.absorb_digits digit (number.symm ▸ fits)
  rw [number] at taken
  simp only [reread, render_natural, whole, Numeral.value, taken, Bool.not_false, if_true]

end Number

end Json

end VisualEffects
