import Mathlib.Algebra.Order.Field.Basic
import Mathlib.Analysis.SpecialFunctions.Trigonometric.Basic
import VisualEffects.Animation.Track

namespace VisualEffects

/-! Arithmetic without rounding.

The formulas of curves and samples are written over any arithmetic.  Here they are read over an ordered field: numbers,
sums, products and comparisons are the field's own, and of the root, the sine and the cosine only that is known which is
assumed of them.  What is proved there is about the formulas and not about their rounding.
-/

/-- Whether a function of time goes from 0 to 1 and never back. -/
structure Steady {α : Type} [Field α] [LinearOrder α] (f : α → α) : Prop where
  monotone : Monotone f
  before : ∀ t ≤ 0, f t = 0
  after : ∀ t, 1 ≤ t → f t = 1

namespace Steady

variable {α : Type} [Field α] [LinearOrder α] {f : α → α} (steady : Steady f) (t : α)
include steady

theorem nonneg : 0 ≤ f t :=
  calc
    0 = f (min t 0) := (steady.before _ (min_le_right t 0)).symm
    _ ≤ f t := steady.monotone (min_le_left t 0)

theorem le_one : f t ≤ 1 :=
  calc
    f t ≤ f (max t 1) := steady.monotone (le_max_left t 1)
    _ = 1 := steady.after _ (le_max_right t 1)

end Steady

/-- The number and the functions that a field does not bring along. -/
class Elementary (α : Type) where
  pi : α
  sqrt : α → α
  sin : α → α
  cos : α → α

variable {α : Type} [Field α] [LinearOrder α] [Elementary α]

instance Arithmetic.exact : Arithmetic α where
  ofNat n := n
  pi := Elementary.pi
  sqrt := Elementary.sqrt
  sin := Elementary.sin
  cos := Elementary.cos
  less x y := decide (x < y)

namespace Arithmetic

variable (x y : α)

@[simp] theorem ofNat_exact (n : Nat) : (Arithmetic.ofNat n : α) = n := rfl
@[simp] theorem pi_exact : (Arithmetic.pi : α) = Elementary.pi := rfl
@[simp] theorem sqrt_exact : Arithmetic.sqrt x = Elementary.sqrt x := rfl
@[simp] theorem sin_exact : Arithmetic.sin x = Elementary.sin x := rfl
@[simp] theorem cos_exact : Arithmetic.cos x = Elementary.cos x := rfl
@[simp] theorem less_exact : Arithmetic.less x y = decide (x < y) := rfl

end Arithmetic

namespace Elementary

/-- What is assumed of the elementary functions between the ends of the quarters that curves are made of. -/
structure Lawful (α : Type) [Field α] [LinearOrder α] [Elementary α] : Prop where
  pi_pos : 0 < (pi : α)
  monotoneOn_sqrt : MonotoneOn (sqrt : α → α) (Set.Icc 0 1)
  sqrt_zero : sqrt (0 : α) = 0
  sqrt_one : sqrt (1 : α) = 1
  monotoneOn_sin : MonotoneOn (sin : α → α) (Set.Icc 0 (pi / 2))
  sin_zero : sin (0 : α) = 0
  sin_half_pi : sin (pi / 2 : α) = 1
  antitoneOn_cos : AntitoneOn (cos : α → α) (Set.Icc 0 pi)
  cos_zero : cos (0 : α) = 1
  cos_half_pi : cos (pi / 2 : α) = 0
  cos_pi : cos (pi : α) = -1

noncomputable instance : Elementary ℝ where
  pi := Real.pi
  sqrt := Real.sqrt
  sin := Real.sin
  cos := Real.cos

/-- The functions of the real numbers are such functions. -/
theorem lawful_real : Lawful ℝ where
  pi_pos := Real.pi_pos
  monotoneOn_sqrt := Real.sqrt_monotone.monotoneOn _
  sqrt_zero := Real.sqrt_zero
  sqrt_one := Real.sqrt_one
  monotoneOn_sin := by
    refine Real.strictMonoOn_sin.monotoneOn.mono (Set.Icc_subset_Icc_left ?_)
    exact neg_nonpos.mpr (div_nonneg Real.pi_pos.le zero_le_two)
  sin_zero := Real.sin_zero
  sin_half_pi := Real.sin_pi_div_two
  antitoneOn_cos := Real.antitoneOn_cos
  cos_zero := Real.cos_zero
  cos_half_pi := Real.cos_pi_div_two
  cos_pi := Real.cos_pi

end Elementary

variable [IsStrictOrderedRing α]

theorem Arithmetic.clampUnit_eq (t : α) : clampUnit t = max 0 (min t 1) := by
  simp only [clampUnit, less_exact, ofNat_exact, Nat.cast_zero, Nat.cast_one, decide_eq_true_eq]
  split
  · rename_i negative
    rw [min_eq_left (negative.le.trans zero_le_one), max_eq_left negative.le]
  · rename_i nonneg
    split
    · rename_i above
      rw [min_eq_right above.le, max_eq_right zero_le_one]
    · rename_i within
      rw [min_eq_left (not_lt.mp within), max_eq_right (not_lt.mp nonneg)]

theorem Arithmetic.clampUnit_mem (t : α) : clampUnit t ∈ Set.Icc (0 : α) 1 := by
  rw [clampUnit_eq]
  exact ⟨le_max_left _ _, max_le zero_le_one (min_le_right _ _)⟩

/-- Whole seconds and the rest of them together are the nanoseconds in seconds. -/
theorem Duration.seconds_eq (duration : Duration) :
    duration.seconds = (duration.nanoseconds / 1000000000 : α) := by
  have parts := Nat.div_add_mod duration.nanoseconds 1000000000
  have sum : (1000000000 * (duration.nanoseconds / 1000000000 : Nat) + (duration.nanoseconds % 1000000000 : Nat) : α) =
      duration.nanoseconds := by
    exact_mod_cast congrArg (Nat.cast : Nat → α) parts
  rw [← sum, seconds]
  simp only [Arithmetic.ofNat_exact]
  field_simp
  push_cast
  ring

end VisualEffects
