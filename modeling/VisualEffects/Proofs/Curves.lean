import Mathlib.Algebra.Order.Interval.Set.Instances
import Mathlib.Order.Interval.Set.LinearOrder
import VisualEffects.Animation.Easing
import VisualEffects.Proofs.Exact

namespace VisualEffects

/-! How curves rise, in exact arithmetic.

All but the straight curve come in families of three: one speeds up, one is the same curve turned about the middle, and
one is made of two halves of it.  So what holds of the first of a family holds of the others.
-/

variable {α : Type} [Field α] [LinearOrder α]

/-- Whether a curve leads from 0 to 1 and never back between them. -/
structure Rises (f : α → α) : Prop where
  monotoneOn : MonotoneOn f (Set.Icc 0 1)
  start : f 0 = 0
  goal : f 1 = 1

/-- A curve turned about the middle. -/
def turned (f : α → α) (t : α) : α := 1 - f (1 - t)

/-- A curve at half its size, and from the middle on turned. -/
def halved (f : α → α) (t : α) : α := if t < 1 / 2 then f (2 * t) / 2 else 1 - f (2 - 2 * t) / 2

section Halves

variable [IsStrictOrderedRing α] {t : α} (within : t ∈ Set.Icc (0 : α) 1)
include within

theorem mem_of_first_half (first : t < 1 / 2) : 2 * t ∈ Set.Icc (0 : α) 1 :=
  ⟨mul_nonneg zero_le_two within.1, by linarith⟩

theorem mem_of_second_half (second : ¬ t < 1 / 2) : 2 - 2 * t ∈ Set.Icc (0 : α) 1 :=
  ⟨by linarith [within.2], by linarith⟩

end Halves

namespace Rises

variable [IsStrictOrderedRing α] {f : α → α} (rises : Rises f)
include rises

theorem le_one {t : α} (within : t ∈ Set.Icc (0 : α) 1) : f t ≤ 1 := by
  rw [← rises.goal]
  exact rises.monotoneOn within (Set.right_mem_Icc.mpr zero_le_one) within.2

theorem turned : Rises (turned f) where
  monotoneOn := by
    intro t ht u hu le
    have back := rises.monotoneOn (Set.Icc.one_sub_mem hu) (Set.Icc.one_sub_mem ht) (sub_le_sub_left le 1)
    exact sub_le_sub_left back 1
  start := by rw [VisualEffects.turned, sub_zero, rises.goal, sub_self]
  goal := by rw [VisualEffects.turned, sub_self, rises.start, sub_zero]

theorem halved : Rises (halved f) where
  monotoneOn := by
    intro t ht u hu le
    unfold VisualEffects.halved
    split <;> rename_i first <;> split <;> rename_i second
    · have forth := rises.monotoneOn (mem_of_first_half ht first) (mem_of_first_half hu second) (by linarith)
      linarith
    -- The halves meet at 1 / 2, which neither of them crosses.
    · have below := rises.le_one (mem_of_first_half ht first)
      have above := rises.le_one (mem_of_second_half hu second)
      linarith
    · exact absurd (lt_of_le_of_lt le second) first
    · have back := rises.monotoneOn (mem_of_second_half hu second) (mem_of_second_half ht first) (by linarith)
      linarith
  start := by
    have half : (0 : α) < 1 / 2 := one_half_pos
    rw [VisualEffects.halved, if_pos half, mul_zero, rises.start, zero_div]
  goal := by
    have half : ¬ (1 : α) < 1 / 2 := not_lt.mpr one_half_lt_one.le
    rw [VisualEffects.halved, if_neg half, mul_one, sub_self, rises.start, zero_div, sub_zero]

end Rises

namespace Easing

/-- Families of curves. -/
inductive Family where
  | sine
  | quadratic
  | cubic
  | circle
deriving DecidableEq

namespace Family

def easeIn : Family → Easing
  | sine => sineEaseIn
  | quadratic => quadraticEaseIn
  | cubic => cubicEaseIn
  | circle => circleEaseIn

def easeOut : Family → Easing
  | sine => sineEaseOut
  | quadratic => quadraticEaseOut
  | cubic => cubicEaseOut
  | circle => circleEaseOut

def easeInOut : Family → Easing
  | sine => sineEaseInOut
  | quadratic => quadraticEaseInOut
  | cubic => cubicEaseInOut
  | circle => circleEaseInOut

end Family

open Elementary

variable [IsStrictOrderedRing α]

theorem one_sub_square_mem {x : α} (within : x ∈ Set.Icc (-1 : α) 1) : 1 - x * x ∈ Set.Icc (0 : α) 1 := by
  have short : x * x ≤ 1 := abs_le_one_iff_mul_self_le_one.mp (abs_le.mpr within)
  exact ⟨sub_nonneg.mpr short, sub_le_self 1 (mul_self_nonneg x)⟩

variable [Elementary α]

/-- The curve that slows down is the one that speeds up, turned; of the sine this takes that it is the cosine turned. -/
theorem curve_easeOut (family : Family) (turns : family = .sine → ∀ x : α, sin x = cos (pi / 2 - x)) :
    (family.easeOut.curve : α → α) = turned family.easeIn.curve := by
  funext t
  cases family with
  | sine =>
      have turn : (1 - t) * pi / 2 = pi / 2 - t * pi / 2 := by ring
      simp only [Family.easeOut, Family.easeIn, turned, curve, Arithmetic.ofNat_exact, Nat.cast_one, Nat.cast_ofNat,
        Arithmetic.sin_exact, Arithmetic.cos_exact, Arithmetic.pi_exact, turns rfl]
      rw [turn, sub_sub_cancel]
  | quadratic =>
      simp only [Family.easeOut, Family.easeIn, turned, curve, Arithmetic.ofNat_exact, Nat.cast_one]
  | cubic =>
      simp only [Family.easeOut, Family.easeIn, turned, curve, Arithmetic.ofNat_exact, Nat.cast_one, Arithmetic.cube]
      ring
  | circle =>
      have turn : 1 - (t - 1) * (t - 1) = 1 - (1 - t) * (1 - t) := by ring
      simp only [Family.easeOut, Family.easeIn, turned, curve, Arithmetic.ofNat_exact, Nat.cast_one, Arithmetic.square,
        Arithmetic.sqrt_exact]
      rw [turn, sub_sub_cancel]

/-- The third curve of a family is made of halves; of the sine this takes that the cosine, turned, changes its sign. -/
theorem curve_easeInOut (family : Family) (turns : family = .sine → ∀ x : α, cos (pi - x) = -cos x) :
    (family.easeInOut.curve : α → α) = halved family.easeIn.curve := by
  funext t
  unfold halved
  cases family with
  | sine =>
      simp only [Family.easeInOut, Family.easeIn, curve, Arithmetic.ofNat_exact, Nat.cast_one, Nat.cast_ofNat,
        Arithmetic.cos_exact, Arithmetic.pi_exact]
      split
      · have same : 2 * t * pi / 2 = pi * t := by ring
        rw [same]
        ring
      · have turn : (2 - 2 * t) * pi / 2 = pi - pi * t := by ring
        rw [turn, turns rfl]
        ring
  | quadratic =>
      simp only [Family.easeInOut, Family.easeIn, curve, Arithmetic.ofNat_exact, Nat.cast_one, Nat.cast_ofNat,
        Arithmetic.less_exact, decide_eq_true_eq, Arithmetic.square]
      split <;> ring
  | cubic =>
      simp only [Family.easeInOut, Family.easeIn, curve, Arithmetic.ofNat_exact, Nat.cast_one, Nat.cast_ofNat,
        Arithmetic.less_exact, decide_eq_true_eq, Arithmetic.cube]
      split <;> ring
  | circle =>
      have turn : (-2 * t + 2) * (-2 * t + 2) = (2 - 2 * t) * (2 - 2 * t) := by ring
      simp only [Family.easeInOut, Family.easeIn, curve, Arithmetic.ofNat_exact, Nat.cast_one, Nat.cast_ofNat,
        Arithmetic.less_exact, decide_eq_true_eq, Arithmetic.square, Arithmetic.sqrt_exact]
      split
      · rfl
      · rw [turn]
        ring

theorem quadratic_rises : Rises (quadraticEaseIn.curve : α → α) where
  monotoneOn := by
    intro t ht u hu le
    exact mul_le_mul le le ht.1 hu.1
  start := by simp [curve]
  goal := by simp [curve]

theorem cubic_rises : Rises (cubicEaseIn.curve : α → α) where
  monotoneOn := by
    intro t ht u hu le
    exact mul_le_mul (mul_le_mul le le ht.1 hu.1) le ht.1 (mul_nonneg hu.1 hu.1)
  start := by simp [curve]
  goal := by simp [curve]

section Lawful

variable (lawful : Lawful α)
include lawful

theorem circle_rises : Rises (circleEaseIn.curve : α → α) where
  monotoneOn := by
    intro t ht u hu le
    have squares : t * t ≤ u * u := mul_le_mul le le ht.1 hu.1
    have whole : Set.Icc (0 : α) 1 ⊆ Set.Icc (-1) 1 := Set.Icc_subset_Icc_left (neg_nonpos.mpr zero_le_one)
    have shorter := lawful.monotoneOn_sqrt (one_sub_square_mem (whole hu)) (one_sub_square_mem (whole ht))
      (sub_le_sub_left squares 1)
    simp only [curve, Arithmetic.ofNat_exact, Nat.cast_one, Arithmetic.sqrt_exact]
    exact sub_le_sub_left shorter 1
  start := by simp [curve, lawful.sqrt_one]
  goal := by simp [curve, lawful.sqrt_zero]

theorem quarter_mem {t : α} (within : t ∈ Set.Icc (0 : α) 1) : t * pi / 2 ∈ Set.Icc (0 : α) (pi / 2) := by
  have positive := lawful.pi_pos
  refine ⟨div_nonneg (mul_nonneg within.1 positive.le) zero_le_two, ?_⟩
  exact div_le_div_of_nonneg_right (mul_le_of_le_one_left positive.le within.2) zero_le_two

theorem half_mem {t : α} (within : t ∈ Set.Icc (0 : α) 1) : pi * t ∈ Set.Icc (0 : α) pi :=
  ⟨mul_nonneg lawful.pi_pos.le within.1, mul_le_of_le_one_right lawful.pi_pos.le within.2⟩

theorem quarter_mono {t u : α} (le : t ≤ u) : t * pi / 2 ≤ u * pi / 2 :=
  div_le_div_of_nonneg_right (mul_le_mul_of_nonneg_right le lawful.pi_pos.le) zero_le_two

theorem sineEaseIn_rises : Rises (sineEaseIn.curve : α → α) where
  monotoneOn := by
    intro t ht u hu le
    have upTo : Set.Icc (0 : α) (pi / 2) ⊆ Set.Icc 0 pi := Set.Icc_subset_Icc_right (half_le_self lawful.pi_pos.le)
    have falls := lawful.antitoneOn_cos (upTo (quarter_mem lawful ht)) (upTo (quarter_mem lawful hu))
      (quarter_mono lawful le)
    simp only [curve, Arithmetic.ofNat_exact, Nat.cast_one, Nat.cast_ofNat, Arithmetic.cos_exact, Arithmetic.pi_exact]
    exact sub_le_sub_left falls 1
  start := by simp [curve, lawful.cos_zero]
  goal := by simp [curve, lawful.cos_half_pi]

theorem sineEaseOut_rises : Rises (sineEaseOut.curve : α → α) where
  monotoneOn := by
    intro t ht u hu le
    simp only [curve, Arithmetic.ofNat_exact, Nat.cast_ofNat, Arithmetic.sin_exact, Arithmetic.pi_exact]
    exact lawful.monotoneOn_sin (quarter_mem lawful ht) (quarter_mem lawful hu) (quarter_mono lawful le)
  start := by simp [curve, lawful.sin_zero]
  goal := by simp [curve, lawful.sin_half_pi]

theorem sineEaseInOut_rises : Rises (sineEaseInOut.curve : α → α) where
  monotoneOn := by
    intro t ht u hu le
    have falls := lawful.antitoneOn_cos (half_mem lawful ht) (half_mem lawful hu)
      (mul_le_mul_of_nonneg_left le lawful.pi_pos.le)
    simp only [curve, Arithmetic.ofNat_exact, Nat.cast_one, Nat.cast_ofNat, Arithmetic.cos_exact, Arithmetic.pi_exact]
    linarith
  start := by simp [curve, lawful.cos_zero]
  goal := by norm_num [curve, lawful.cos_pi]

/-- Every curve rises from 0 to 1. -/
theorem curve_rises (easing : Easing) : Rises (easing.curve : α → α) := by
  have others (family : Family) (notSine : family ≠ .sine) (rises : Rises (family.easeIn.curve : α → α)) :
      Rises (family.easeOut.curve : α → α) ∧ Rises (family.easeInOut.curve : α → α) := by
    rw [curve_easeOut family fun sine => absurd sine notSine, curve_easeInOut family fun sine => absurd sine notSine]
    exact ⟨rises.turned, rises.halved⟩
  cases easing with
  | linear => exact ⟨fun _ _ _ _ le => le, rfl, rfl⟩
  | sineEaseIn => exact sineEaseIn_rises lawful
  | sineEaseOut => exact sineEaseOut_rises lawful
  | sineEaseInOut => exact sineEaseInOut_rises lawful
  | quadraticEaseIn => exact quadratic_rises
  | quadraticEaseOut => exact (others .quadratic nofun quadratic_rises).1
  | quadraticEaseInOut => exact (others .quadratic nofun quadratic_rises).2
  | cubicEaseIn => exact cubic_rises
  | cubicEaseOut => exact (others .cubic nofun cubic_rises).1
  | cubicEaseInOut => exact (others .cubic nofun cubic_rises).2
  | circleEaseIn => exact circle_rises lawful
  | circleEaseOut => exact (others .circle nofun (circle_rises lawful)).1
  | circleEaseInOut => exact (others .circle nofun (circle_rises lawful)).2

end Lawful

end Easing

theorem Rises.steady {f : α → α} [IsStrictOrderedRing α] [Elementary α] (rises : Rises f) :
    Steady fun t => f (Arithmetic.clampUnit t) where
  monotone := by
    intro t u le
    refine rises.monotoneOn (Arithmetic.clampUnit_mem t) (Arithmetic.clampUnit_mem u) ?_
    rw [Arithmetic.clampUnit_eq, Arithmetic.clampUnit_eq]
    exact max_le_max_left 0 (min_le_min_right 1 le)
  before := by
    intro t le
    simp only [Arithmetic.clampUnit_eq]
    rw [min_eq_left (le.trans zero_le_one), max_eq_left le, rises.start]
  after := by
    intro t le
    simp only [Arithmetic.clampUnit_eq]
    rw [min_eq_right le, max_eq_right zero_le_one, rises.goal]

end VisualEffects
