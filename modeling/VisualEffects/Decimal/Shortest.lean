namespace VisualEffects

/-! The shortest decimal that reads back as a given binary number.

A finite nonzero double is `significand * 2 ^ exponent`; the reals that round to it form an interval around
it, with its ends when the significand is even.  Of the grids of multiples of `10 ^ k` the coarsest one with
a point in that interval is taken, and of its two points next to the number the nearer one.  All comparisons
are between naturals, so nothing is rounded on the way.
-/

/-- The decimal number `digits * 10 ^ exponent`. -/
structure Decimal where
  digits : Nat
  exponent : Int
deriving DecidableEq, Repr

namespace Decimal

/-- The size of a finite double, `significand * 2 ^ exponent`. -/
structure Binary where
  significand : Nat
  exponent : Int
  /-- Whether the next smaller double is half as far away as the next greater one. -/
  narrowBelow : Bool
deriving DecidableEq, Repr

/-- The size of a finite double, read off its bits. -/
def Binary.ofFloat (x : Float) : Binary :=
  let bits := x.toBits.toNat
  let fraction : Nat := bits % (1 <<< 52)
  let biased : Nat := (bits >>> 52) % (1 <<< 11)
  if biased = 0 then ⟨fraction, -1074, false⟩
  else ⟨(1 <<< 52) + fraction, (biased : Int) - 1075, fraction == 0 && 1 < biased⟩

/-- `base ^ exponent` as a fraction, numerator first. -/
def power (base : Nat) (exponent : Int) : Nat × Nat :=
  if 0 ≤ exponent then (Nat.pow base exponent.toNat, 1) else (1, Nat.pow base (-exponent).toNat)

/-- Which of two equally near points of a grid is taken. -/
inductive Tie where
  | toEven
  | up
deriving DecidableEq, Repr

namespace Binary

variable (x : Binary)

/-- Quarters of the last place: the least size that still rounds to `x`, `x` itself, and the greatest. -/
def lowest : Nat := 4 * x.significand - if x.narrowBelow then 1 else 2

def quarters : Nat := 4 * x.significand

def highest : Nat := 4 * x.significand + 2

/-- The factors that make grid points at `10 ^ k` and quarters of the last place comparable: a point `d`
stands at `d * (scales k).1`, a number of quarters `n` at `n * (scales k).2`. -/
def scales (k : Int) : Nat × Nat :=
  let ten := power 10 k
  let quarter := power 2 (x.exponent - 2)
  (ten.1 * quarter.2, quarter.1 * ten.2)

/-- Whether the point `d` of the grid `10 ^ k` rounds to `x`. -/
def covers (k : Int) (d : Nat) : Bool :=
  let scales := x.scales k
  let point := d * scales.1
  let low := x.lowest * scales.2
  let high := x.highest * scales.2
  (low < point && point < high) || (x.significand % 2 == 0 && (point == low || point == high))

/-- The point of the grid `10 ^ k` that is nearest to `x` among the two next to it that round to `x`. -/
def pointAt? (tie : Tie) (k : Int) : Option Nat :=
  let scales := x.scales k
  let below := x.quarters * scales.2 / scales.1
  let left := x.quarters * scales.2 % scales.1
  match x.covers k below, x.covers k (below + 1) with
  | false, false => none
  | true, false => some below
  | false, true => some (below + 1)
  | true, true =>
      if 2 * left < scales.1 then some below
      else if scales.1 < 2 * left then some (below + 1)
      else match tie with
        | .up => some (below + 1)
        | .toEven => some (below + below % 2)

/-- An exponent `e` with `x ≤ 10 ^ e` that is at most one too large. -/
def ceilingExponent : Int :=
  let unit := power 2 x.exponent
  let numerator := x.significand * unit.1
  if unit.2 ≤ numerator then (Nat.toDigits 10 (numerator / unit.2)).length
  else 1 - (Nat.toDigits 10 (unit.2 / numerator)).length

/-- The coarsest grid with a point, from `10 ^ k` downwards; seventeen digits are always enough. -/
def search (tie : Tie) : Nat → Int → Decimal
  | 0, k => ⟨x.quarters * (x.scales k).2 / (x.scales k).1, k⟩
  | more + 1, k =>
      match x.pointAt? tie k with
      | some digits => ⟨digits, k⟩
      | none => search tie more (k - 1)

/-- The shortest decimal that reads back as `x`, and of those the nearest to it. -/
def shortest (tie : Tie) : Decimal :=
  if x.significand = 0 then ⟨0, 0⟩ else x.search tie 20 x.ceilingExponent

end Binary

theorem Binary.covers_of_pointAt? {x : Binary} {tie : Tie} {k : Int} {d : Nat}
    (found : x.pointAt? tie k = some d) : x.covers k d = true := by
  unfold Binary.pointAt? at found
  simp only at found
  split at found
  · contradiction
  · next below _ => cases found; exact below
  · next _ above => cases found; exact above
  · next below above =>
      split at found
      · cases found; exact below
      · split at found
        · cases found; exact above
        · cases tie with
          | up => cases found; exact above
          | toEven =>
              simp only [Option.some.injEq] at found
              subst found
              rcases Nat.mod_two_eq_zero_or_one (x.quarters * (x.scales k).2 / (x.scales k).1) with even | odd
              · simpa [even] using below
              · simpa [odd] using above

end Decimal

end VisualEffects
