import VisualEffects.Proofs.Curves

namespace VisualEffects

/-! How a whole family of curves follows from the one that speeds up, in exact arithmetic.

A time is moved into the range of a curve before the curve is followed.  It makes no difference whether it is turned
about the middle before or after that, or doubled as long as it lies in the first half.  So the curves of a family are
tied to each other at every time, also before they start and after they end.
-/

section Field

variable {α : Type} [Field α] [LinearOrder α] [IsStrictOrderedRing α] {f : α → α} {t : α}

/-- The halves of a curve meet in the middle because the curve itself ends at 1. -/
theorem halved_of_le (goal : f 1 = 1) (first : t ≤ 1 / 2) : halved f t = f (2 * t) / 2 := by
  rcases first.lt_or_eq with before | middle
  · exact if_pos before
  · have back : 2 - 2 * t = 1 := by linarith
    have forth : 2 * t = 1 := by linarith
    rw [halved, if_neg (not_lt.mpr middle.ge), back, forth, goal]
    exact sub_half 1

omit [IsStrictOrderedRing α] in
theorem halved_of_ge (second : 1 / 2 ≤ t) : halved f t = 1 - f (2 - 2 * t) / 2 :=
  if_neg (not_lt.mpr second)

theorem halved_one_sub (goal : f 1 = 1) (t : α) : halved f (1 - t) = 1 - halved f t := by
  rcases le_total t (1 / 2) with first | second
  · have same : 2 - 2 * (1 - t) = 2 * t := by ring
    have turns : 1 / 2 ≤ 1 - t := by linarith
    rw [halved_of_ge turns, same, halved_of_le goal first]
  · have same : 2 * (1 - t) = 2 - 2 * t := by ring
    have turns : 1 - t ≤ 1 / 2 := by linarith
    rw [halved_of_le goal turns, same, halved_of_ge second, sub_sub_cancel]

/-- Turning the unit interval about its middle carries the nearest point of it along. -/
theorem nearest_one_sub (t : α) : max 0 (min (1 - t) 1) = 1 - max 0 (min t 1) :=
  calc
    max 0 (min (1 - t) 1) = max (1 - 1) (min (1 - t) (1 - 0)) := by rw [sub_self, sub_zero]
    _ = 1 - min 1 (max t 0) := by rw [min_sub_sub_left, max_sub_sub_left]
    _ = 1 - max 0 (min t 1) := by rw [max_min_distrib_left, max_eq_right zero_le_one, min_comm, max_comm]

theorem nearest_double (first : t ≤ 1 / 2) : max 0 (min (2 * t) 1) = 2 * max 0 (min t 1) := by
  have below : t ≤ 1 := first.trans one_half_lt_one.le
  have doubled : 2 * t ≤ 1 := by linarith
  rw [min_eq_left doubled, min_eq_left below, mul_max_of_nonneg _ _ zero_le_two, mul_zero]

theorem nearest_double_back (second : 1 / 2 ≤ t) : max 0 (min (2 - 2 * t) 1) = 2 - 2 * max 0 (min t 1) := by
  have same : 2 - 2 * t = 2 * (1 - t) := by ring
  have turns : 1 - t ≤ 1 / 2 := by linarith
  rw [same, nearest_double turns, nearest_one_sub]
  ring

theorem nearest_lt_half : max 0 (min t 1) < 1 / 2 ↔ t < 1 / 2 := by
  rw [max_lt_iff, min_lt_iff, or_iff_left one_half_lt_one.not_gt, and_iff_right one_half_pos]

end Field

namespace Elementary

/-- What is assumed of the elementary functions for the curves of a family to be one curve. -/
structure Mirrored (α : Type) [Field α] [LinearOrder α] [Elementary α] : Prop where
  sqrt_zero : sqrt (0 : α) = 0
  sin_eq_cos (x : α) : sin x = cos (pi / 2 - x)
  cos_pi_sub (x : α) : cos (pi - x) = -cos x

theorem mirrored_real : Mirrored ℝ where
  sqrt_zero := Real.sqrt_zero
  sin_eq_cos x := (Real.cos_pi_div_two_sub x).symm
  cos_pi_sub := Real.cos_pi_sub

/-- A right angle is turned to itself, so its cosine is its own negative. -/
theorem Mirrored.cos_half_pi {α : Type} [Field α] [LinearOrder α] [IsStrictOrderedRing α] [Elementary α]
    (mirrored : Mirrored α) : cos (pi / 2 : α) = 0 := by
  have turns := mirrored.cos_pi_sub (pi / 2)
  rw [sub_half] at turns
  exact self_eq_neg.mp turns

end Elementary

namespace Easing

open Elementary

variable {α : Type} [Field α] [LinearOrder α] [IsStrictOrderedRing α] [Elementary α]

theorem apply_easeOut (family : Family) (turns : family = .sine → ∀ x : α, sin x = cos (pi / 2 - x)) :
    (family.easeOut.apply : α → α) = turned family.easeIn.apply := by
  funext t
  simp only [apply, turned, Arithmetic.clampUnit_eq, curve_easeOut family turns, nearest_one_sub]

theorem apply_easeInOut (family : Family) (turns : family = .sine → ∀ x : α, cos (pi - x) = -cos x) :
    (family.easeInOut.apply : α → α) = halved family.easeIn.apply := by
  funext t
  simp only [apply, halved, Arithmetic.clampUnit_eq, curve_easeInOut family turns, nearest_lt_half]
  split
  · rename_i first
    rw [nearest_double first.le]
  · rename_i second
    rw [nearest_double_back (not_lt.mp second)]

section Mirrored

variable (mirrored : Mirrored α)
include mirrored

theorem easeIn_goal (family : Family) : family.easeIn.apply (1 : α) = 1 := by
  have ended : Arithmetic.clampUnit (1 : α) = 1 := by
    rw [Arithmetic.clampUnit_eq, min_self, max_eq_right zero_le_one]
  rw [apply, ended]
  cases family with
  | sine => simp [Family.easeIn, curve, mirrored.cos_half_pi]
  | quadratic => exact quadratic_rises.goal
  | cubic => exact cubic_rises.goal
  | circle => simp [Family.easeIn, curve, mirrored.sqrt_zero]

/-- A family is one curve.  The curve that slows down is the one that speeds up, turned about the middle.  The third is
the first at half its size up to the middle, and that turned from there on; its halves agree where they meet, and turned
about the middle it is itself again. -/
theorem apply_follows_easeIn (family : Family) (t : α) :
    family.easeOut.apply t = 1 - family.easeIn.apply (1 - t) ∧
    (t ≤ 1 / 2 → family.easeInOut.apply t = family.easeIn.apply (2 * t) / 2) ∧
    (1 / 2 ≤ t → family.easeInOut.apply t = 1 - family.easeIn.apply (2 - 2 * t) / 2) ∧
    family.easeInOut.apply (1 - t) = 1 - family.easeInOut.apply t := by
  have goal := easeIn_goal mirrored family
  rw [apply_easeOut family fun _ => mirrored.sin_eq_cos, apply_easeInOut family fun _ => mirrored.cos_pi_sub]
  exact ⟨rfl, halved_of_le goal, halved_of_ge, halved_one_sub goal t⟩

end Mirrored

/-- The sine of the real numbers in the middle of its time, where its halves meet, and at both quarters of it. -/
theorem apply_follows_easeIn_of_sine :
    Mirrored ℝ ∧ (1 / 2 : ℝ) ≤ 1 / 2 ∧
      sineEaseInOut.apply (1 / 2 : ℝ) = sineEaseIn.apply (2 * (1 / 2) : ℝ) / 2 ∧
      sineEaseInOut.apply (1 / 2 : ℝ) = 1 - sineEaseIn.apply (2 - 2 * (1 / 2) : ℝ) / 2 ∧
      sineEaseInOut.apply (1 - 1 / 4 : ℝ) = 1 - sineEaseInOut.apply (1 / 4 : ℝ) := by
  obtain ⟨_, first, second, _⟩ := apply_follows_easeIn mirrored_real .sine (1 / 2)
  obtain ⟨_, _, _, turns⟩ := apply_follows_easeIn mirrored_real .sine (1 / 4)
  exact ⟨mirrored_real, le_rfl, first le_rfl, second le_rfl, turns⟩

end Easing

end VisualEffects
