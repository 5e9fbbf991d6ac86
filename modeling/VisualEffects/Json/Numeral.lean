import VisualEffects.Json.Fault

namespace VisualEffects.Json

/-! Written numbers: their grammar, and the value they are read as.

The digits of a numeral are collected in a 64-bit significand.  A digit that no longer fits is dropped: in
the whole part it moves the exponent up by one, in the fraction it ends the significand.  The significand
becomes a double, which is then multiplied or divided by a power of ten.  So a numeral with more digits than
a double holds may be read as a neighbour of the nearest double.
-/

structure Numeral where
  negative : Bool
  whole : List Nat
  fraction : Option (List Nat)
  /-- Whether the exponent is negative, and its digits. -/
  exponent : Option (Bool × List Nat)
deriving DecidableEq, Repr

namespace Numeral

def digit? (c : Char) : Option Nat :=
  if '0' ≤ c ∧ c ≤ '9' then some (c.toNat - '0'.toNat) else none

/-- The digits at the front of a text, and what follows them. -/
def digits : List Char → List Nat × List Char
  | [] => ([], [])
  | c :: rest =>
      match digit? c with
      | some d => (d :: (digits rest).1, (digits rest).2)
      | none => ([], c :: rest)

/-- The whole part: a zero alone, or digits that do not start with one.  On failure, what is left where
the grammar is broken. -/
def wholePart (cs : List Char) : Except (List Char) (List Nat × List Char) :=
  match digits cs with
  | ([], rest) => .error rest
  | (0 :: [], rest) => .ok ([0], rest)
  | (0 :: _ :: _, _) => .error (cs.drop 1)
  | found => .ok found

def fractionPart : List Char → Except (List Char) (Option (List Nat) × List Char)
  | '.' :: cs =>
      match digits cs with
      | ([], rest) => .error rest
      | (found, rest) => .ok (some found, rest)
  | cs => .ok (none, cs)

/-- The sign of an exponent: whether it is a minus, and what follows it. -/
def exponentSign : List Char → Bool × List Char
  | '-' :: cs => (true, cs)
  | '+' :: cs => (false, cs)
  | cs => (false, cs)

def exponentDigits (cs : List Char) : Except (List Char) (Option (Bool × List Nat) × List Char) :=
  match digits (exponentSign cs).2 with
  | ([], rest) => .error rest
  | (found, rest) => .ok (some ((exponentSign cs).1, found), rest)

def exponentPart : List Char → Except (List Char) (Option (Bool × List Nat) × List Char)
  | 'e' :: cs => exponentDigits cs
  | 'E' :: cs => exponentDigits cs
  | cs => .ok (none, cs)

/-- The numeral without its sign. -/
def nextUnsigned (negative : Bool) (cs : List Char) : Except (List Char) (Numeral × List Char) := do
  let (whole, cs) ← wholePart cs
  let (fraction, cs) ← fractionPart cs
  let (exponent, cs) ← exponentPart cs
  return (⟨negative, whole, fraction, exponent⟩, cs)

/-- The numeral at the front of a text, and what follows it.  On failure, what is left where the grammar
is broken. -/
def next : List Char → Except (List Char) (Numeral × List Char)
  | '-' :: cs => nextUnsigned true cs
  | cs => nextUnsigned false cs

/-- Significands stay below this. -/
def significandLimit : Nat := UInt64.size

/-- Takes digits into a significand for as long as they fit; the digits that do not are left over. -/
def absorb : List Nat → Nat → Nat × List Nat
  | [], significand => (significand, [])
  | d :: rest, significand =>
      if significand * 10 + d < significandLimit then absorb rest (significand * 10 + d)
      else (significand, d :: rest)

def total (digits : List Nat) : Nat := digits.foldl (fun sum d => sum * 10 + d) 0

/-- `10 ^ n` as a double, for `n` up to 308. -/
def tenTo (n : Nat) : Float := Float.ofScientific 1 false n

/-- Divides by `10 ^ n`, at most 308 places at a time. -/
def shrink (x : Float) (n : Nat) : Float :=
  if n ≤ 308 then x / tenTo n
  else if x == 0 then x
  else shrink (x / tenTo 308) (n - 308)
termination_by n

def scaled (significand : Nat) (exponent : Int) : Except Fault Float :=
  let x := Float.ofNat significand
  if exponent < 0 then .ok (shrink x (-exponent).toNat)
  else if exponent ≤ 308 then
    let product := x * tenTo exponent.toNat
    if product.isInf then .error .numberTooLarge else .ok product
  else if x == 0 then .ok x
  else .error .numberTooLarge

/-- What a numeral is read as.  An integer that does not fit 64 bits is a double, and so is a negative
zero. -/
def value (numeral : Numeral) : Except Fault Number :=
  let sign (x : Float) : Float := if numeral.negative then -x else x
  match absorb numeral.whole 0, numeral.fraction, numeral.exponent with
  | (significand, []), none, none =>
      if !numeral.negative then .ok (.integer significand)
      else if significand = 0 ∨ significandLimit / 2 < significand then .ok (.real (sign (Float.ofNat significand)))
      else .ok (.integer (-significand))
  | (significand, dropped), fraction, exponent =>
      let places := fraction.getD []
      let (significand, unread) := absorb places significand
      let written : Int := match exponent with
        | none => 0
        | some (true, digits) => -(total digits : Int)
        | some (false, digits) => total digits
      (scaled significand (dropped.length - (places.length - unread.length : Nat) + written)).map
        fun x => .real (sign x)

theorem length_digits (cs : List Char) : (digits cs).2.length + (digits cs).1.length = cs.length := by
  induction cs with
  | nil => simp [digits]
  | cons c rest ih =>
      simp only [digits]
      split
      · simp only [List.length_cons]
        omega
      · simp

theorem wholePart_shorter {cs rest : List Char} {found : List Nat}
    (read : wholePart cs = .ok (found, rest)) : rest.length < cs.length := by
  have lengths := length_digits cs
  unfold wholePart at read
  split at read
  · contradiction
  · next same => cases read; simp [same] at lengths; omega
  · contradiction
  · next nonempty _ _ =>
      simp only [Except.ok.injEq] at read
      rw [read] at lengths nonempty
      cases found with
      | nil => exact absurd rfl (nonempty rest)
      | cons => simp at lengths; omega

theorem fractionPart_shorter {cs rest : List Char} {found : Option (List Nat)}
    (read : fractionPart cs = .ok (found, rest)) : rest.length ≤ cs.length := by
  unfold fractionPart at read
  split at read
  · next cs =>
      have lengths := length_digits cs
      split at read
      · contradiction
      · next same => cases read; simp only [same] at lengths; simp only [List.length_cons]; omega
  · cases read; exact Nat.le_refl _

theorem exponentSign_shorter (cs : List Char) : (exponentSign cs).2.length ≤ cs.length := by
  unfold exponentSign
  split <;> simp

theorem exponentDigits_shorter {cs rest : List Char} {found : Option (Bool × List Nat)}
    (read : exponentDigits cs = .ok (found, rest)) : rest.length ≤ cs.length := by
  have lengths := length_digits (exponentSign cs).2
  have sign := exponentSign_shorter cs
  unfold exponentDigits at read
  split at read
  · contradiction
  · next same => cases read; simp only [same] at lengths; omega

theorem exponentPart_shorter {cs rest : List Char} {found : Option (Bool × List Nat)}
    (read : exponentPart cs = .ok (found, rest)) : rest.length ≤ cs.length := by
  unfold exponentPart at read
  split at read
  · exact Nat.le_succ_of_le (exponentDigits_shorter read)
  · exact Nat.le_succ_of_le (exponentDigits_shorter read)
  · cases read; exact Nat.le_refl _

theorem nextUnsigned_shorter {negative : Bool} {cs rest : List Char} {numeral : Numeral}
    (read : nextUnsigned negative cs = .ok (numeral, rest)) : rest.length < cs.length := by
  unfold nextUnsigned at read
  cases whole : wholePart cs with
  | error => simp [whole, bind, Except.bind] at read
  | ok first =>
      cases fraction : fractionPart first.2 with
      | error => simp [whole, fraction, bind, Except.bind] at read
      | ok second =>
          cases exponent : exponentPart second.2 with
          | error => simp [whole, fraction, exponent, bind, Except.bind] at read
          | ok third =>
              simp [whole, fraction, exponent, bind, Except.bind, pure, Except.pure] at read
              have one := wholePart_shorter whole
              have two := fractionPart_shorter fraction
              have three := exponentPart_shorter exponent
              rw [← read.2]
              omega

/-- A numeral takes at least one character. -/
theorem next_shorter {cs rest : List Char} {numeral : Numeral}
    (read : next cs = .ok (numeral, rest)) : rest.length < cs.length := by
  unfold next at read
  split at read
  · exact Nat.lt_succ_of_lt (nextUnsigned_shorter read)
  · exact nextUnsigned_shorter read

end Numeral

end VisualEffects.Json
