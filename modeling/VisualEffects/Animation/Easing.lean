import VisualEffects.Json.Choice

namespace VisualEffects

/-! Easing curves: how the progress of an animation follows its time.

Every curve runs from 0 at 0 to 1 at 1; outside it keeps the value of the nearer end.  The formulas are written once,
over any numbers with the operations that they use, so that they can be run with doubles and reasoned about with exact
numbers.
-/

/-- The arithmetic that curves and samples are computed in. -/
class Arithmetic (α : Type) extends Add α, Sub α, Mul α, Div α, Neg α where
  ofNat : Nat → α
  pi : α
  sqrt : α → α
  sin : α → α
  cos : α → α
  less : α → α → Bool

instance : Arithmetic Float where
  ofNat := Float.ofNat
  pi := 3.141592653589793
  sqrt := Float.sqrt
  sin := Float.sin
  cos := Float.cos
  less x y := x < y

namespace Arithmetic

variable {α : Type} [Arithmetic α]

/-- `x` between 0 and 1, moved to the nearer end when it is outside. -/
def clampUnit (x : α) : α :=
  if less x (ofNat 0) then ofNat 0 else if less (ofNat 1) x then ofNat 1 else x

def square (x : α) : α := x * x

def cube (x : α) : α := x * (x * x)

end Arithmetic

inductive Easing where
  | linear
  | sineEaseIn
  | sineEaseOut
  | sineEaseInOut
  | quadraticEaseIn
  | quadraticEaseOut
  | quadraticEaseInOut
  | cubicEaseIn
  | cubicEaseOut
  | cubicEaseInOut
  | circleEaseIn
  | circleEaseOut
  | circleEaseInOut
deriving DecidableEq, Repr, Inhabited

namespace Easing

instance : Json.Choice Easing where
  all := [.linear, .sineEaseIn, .sineEaseOut, .sineEaseInOut, .quadraticEaseIn, .quadraticEaseOut,
    .quadraticEaseInOut, .cubicEaseIn, .cubicEaseOut, .cubicEaseInOut, .circleEaseIn, .circleEaseOut,
    .circleEaseInOut]
  label
    | .linear => "linear"
    | .sineEaseIn => "sine_ease_in"
    | .sineEaseOut => "sine_ease_out"
    | .sineEaseInOut => "sine_ease_in_out"
    | .quadraticEaseIn => "quadratic_ease_in"
    | .quadraticEaseOut => "quadratic_ease_out"
    | .quadraticEaseInOut => "quadratic_ease_in_out"
    | .cubicEaseIn => "cubic_ease_in"
    | .cubicEaseOut => "cubic_ease_out"
    | .cubicEaseInOut => "cubic_ease_in_out"
    | .circleEaseIn => "circle_ease_in"
    | .circleEaseOut => "circle_ease_out"
    | .circleEaseInOut => "circle_ease_in_out"

open Arithmetic in
def curve {α : Type} [Arithmetic α] (easing : Easing) (t : α) : α :=
  let one : α := Arithmetic.ofNat 1
  let two : α := Arithmetic.ofNat 2
  let four : α := Arithmetic.ofNat 4
  let inFirstHalf := less t (one / two)
  match easing with
  | linear => t
  | sineEaseIn => one - cos (t * pi / two)
  | sineEaseOut => sin (t * pi / two)
  | sineEaseInOut => -(cos (pi * t) - one) / two
  | quadraticEaseIn => t * t
  | quadraticEaseOut => one - (one - t) * (one - t)
  | quadraticEaseInOut =>
      if inFirstHalf then two * t * t else one - square (-two * t + two) / two
  | cubicEaseIn => t * t * t
  | cubicEaseOut => one - cube (one - t)
  | cubicEaseInOut =>
      if inFirstHalf then four * t * t * t else one - cube (-two * t + two) / two
  | circleEaseIn => one - sqrt (one - t * t)
  | circleEaseOut => sqrt (one - square (t - one))
  | circleEaseInOut =>
      if inFirstHalf then (one - sqrt (one - square (two * t))) / two
      else (sqrt (one - square (-two * t + two)) + one) / two

/-- The progress at a time, which is moved into the range of the curve first. -/
def apply {α : Type} [Arithmetic α] (easing : Easing) (t : α) : α := easing.curve (Arithmetic.clampUnit t)

end Easing

end VisualEffects
