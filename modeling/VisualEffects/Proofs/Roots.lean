import VisualEffects.Proofs.Curves

namespace VisualEffects

/-! What roots are taken of on the way along a curve, and how a curve runs as a whole.

The formulas are written over any arithmetic, so they can be run on numbers that remember the roots on the way to them.
-/

/-- A number with the numbers that a root was taken of on the way to it. -/
structure Traced (α : Type) where
  value : α
  roots : List α

namespace Traced

variable {α : Type} [Arithmetic α]

/-- A comparison takes no root and has no number to remember one with.  Curves compare times only, which took none. -/
instance : Arithmetic (Traced α) where
  add x y := ⟨x.value + y.value, x.roots ++ y.roots⟩
  sub x y := ⟨x.value - y.value, x.roots ++ y.roots⟩
  mul x y := ⟨x.value * y.value, x.roots ++ y.roots⟩
  div x y := ⟨x.value / y.value, x.roots ++ y.roots⟩
  neg x := ⟨-x.value, x.roots⟩
  ofNat n := ⟨Arithmetic.ofNat n, []⟩
  pi := ⟨Arithmetic.pi, []⟩
  sqrt x := ⟨Arithmetic.sqrt x.value, x.roots ++ [x.value]⟩
  sin x := ⟨Arithmetic.sin x.value, x.roots⟩
  cos x := ⟨Arithmetic.cos x.value, x.roots⟩
  less x y := Arithmetic.less x.value y.value

/-- A number that no root was taken for. -/
def given (x : α) : Traced α := ⟨x, []⟩

omit [Arithmetic α] in
theorem value_given (x : α) : (given x).value = x := rfl

theorem clampUnit_given (t : α) : Arithmetic.clampUnit (given t) = given (Arithmetic.clampUnit t) := by
  have zero : (Arithmetic.ofNat 0 : Traced α) = given (Arithmetic.ofNat 0) := rfl
  have one : (Arithmetic.ofNat 1 : Traced α) = given (Arithmetic.ofNat 1) := rfl
  have less (x y : α) : Arithmetic.less (given x) (given y) = Arithmetic.less x y := rfl
  simp only [Arithmetic.clampUnit, zero, one, less, apply_ite given]

/-- Remembering roots does not change where a curve leads. -/
theorem value_curve (easing : Easing) (t : Traced α) : (easing.curve t).value = easing.curve t.value := by
  cases easing with
  | quadraticEaseInOut => exact apply_ite Traced.value ..
  | cubicEaseInOut => exact apply_ite Traced.value ..
  | circleEaseInOut => exact apply_ite Traced.value ..
  | _ => rfl

theorem value_apply (easing : Easing) (t : α) : (easing.apply (given t)).value = easing.apply t := by
  rw [Easing.apply, value_curve, clampUnit_given, value_given, Easing.apply]

end Traced

namespace Easing

open Arithmetic Elementary

variable {α : Type} [Field α] [LinearOrder α] [IsStrictOrderedRing α]

theorem mem_of_mem_one_sub_square {x y : α} (member : x ∈ [((1 : Nat) : α) - y * y])
    (within : y ∈ Set.Icc (-1 : α) 1) : x ∈ Set.Icc (0 : α) 1 := by
  rw [List.mem_singleton.mp member, Nat.cast_one]
  exact one_sub_square_mem within

variable [Elementary α]

omit [IsStrictOrderedRing α] in
theorem less_given_half {t : α} :
    less (Traced.given t) (Arithmetic.ofNat 1 / Arithmetic.ofNat 2) = true ↔ t < 1 / 2 := by
  change less t (Arithmetic.ofNat 1 / Arithmetic.ofNat 2) = true ↔ _
  rw [less_exact, ofNat_exact, ofNat_exact, Nat.cast_one, Nat.cast_ofNat, decide_eq_true_iff]

/-- Only circles take roots, and only of numbers between 0 and 1. -/
theorem roots_curve_mem (easing : Easing) {t : α} (within : t ∈ Set.Icc (0 : α) 1) :
    ∀ x ∈ (easing.curve (Traced.given t)).roots, x ∈ Set.Icc (0 : α) 1 := by
  obtain ⟨nonneg, le_one⟩ := within
  intro x member
  cases easing with
  | circleEaseIn => exact mem_of_mem_one_sub_square (y := t) member ⟨by linarith, le_one⟩
  | circleEaseOut =>
      refine mem_of_mem_one_sub_square (y := t - (1 : Nat)) member ?_
      rw [Nat.cast_one]
      exact ⟨by linarith, by linarith⟩
  | circleEaseInOut =>
      rw [curve] at member
      split at member <;> rename_i half <;> rw [less_given_half] at half
      · refine mem_of_mem_one_sub_square (y := (2 : Nat) * t) member ?_
        rw [Nat.cast_ofNat]
        exact ⟨by linarith, by linarith⟩
      · refine mem_of_mem_one_sub_square (y := -(2 : Nat) * t + (2 : Nat)) member ?_
        rw [Nat.cast_ofNat]
        exact ⟨by linarith, by linarith⟩
  | quadraticEaseInOut =>
      rw [curve] at member
      split at member <;> cases member
  | cubicEaseInOut =>
      rw [curve] at member
      split at member <;> cases member
  | _ => cases member

theorem apply_steady (lawful : Lawful α) (easing : Easing) : Steady (easing.apply : α → α) :=
  (curve_rises lawful easing).steady

/-- Every curve is followed from 0 before its time to 1 after it, never back and never beyond them, and roots are taken
of numbers between 0 and 1 only. -/
theorem apply_runs_within_unit (lawful : Lawful α) (easing : Easing) :
    (∀ t u : α, t ≤ u → easing.apply t ≤ easing.apply u) ∧
    (∀ t : α, 0 ≤ easing.apply t ∧ easing.apply t ≤ 1) ∧
    (∀ t : α, t ≤ 0 → easing.apply t = 0) ∧
    (∀ t : α, 1 ≤ t → easing.apply t = 1) ∧
    ∀ t : α, (easing.apply (Traced.given t)).value = easing.apply t ∧
      ∀ x ∈ (easing.apply (Traced.given t)).roots, 0 ≤ x ∧ x ≤ 1 := by
  have steady := apply_steady lawful easing
  refine ⟨fun _ _ le => steady.monotone le, fun t => ⟨steady.nonneg t, steady.le_one t⟩, steady.before, steady.after,
    fun t => ⟨Traced.value_apply easing t, ?_⟩⟩
  rw [apply, Traced.clampUnit_given]
  exact roots_curve_mem easing (clampUnit_mem t)

/-- The circle of the real numbers from a quarter of its time to three quarters, and long after it. -/
theorem apply_runs_within_unit_of_circle :
    Lawful ℝ ∧ (1 / 4 : ℝ) ≤ 3 / 4 ∧ circleEaseInOut.apply (1 / 4 : ℝ) ≤ circleEaseInOut.apply (3 / 4 : ℝ) ∧
      circleEaseInOut.apply (7 : ℝ) = 1 := by
  have le : (1 / 4 : ℝ) ≤ 3 / 4 := by norm_num
  obtain ⟨monotone, _, _, after, _⟩ := apply_runs_within_unit lawful_real circleEaseInOut
  exact ⟨lawful_real, le, monotone _ _ le, after 7 (by norm_num)⟩

end Easing

end VisualEffects
