import Mathlib.Algebra.Order.Group.Pointwise.Interval
import VisualEffects.Animation.Track
import VisualEffects.Proofs.Roots

namespace VisualEffects

/-! How a track moves, in exact arithmetic.

It waits at its start until the delay is over, moves to its goal while the duration lasts, and stays there.  A sample is
the start with a share of the way added, so everything is read off how that share grows with time.
-/

/-- What is nearer to the end of a way lies between what is farther from it and the end. -/
theorem way_mem_uIcc {α : Type} [Field α] [LinearOrder α] [IsStrictOrderedRing α] (start goal : α)
    {share later : α} (le : share ≤ later) (le_one : later ≤ 1) :
    start + (goal - start) * later ∈ Set.uIcc (start + (goal - start) * share) goal := by
  rw [Set.mem_uIcc]
  rcases le_total start goal with up | down
  · have way : 0 ≤ goal - start := sub_nonneg.mpr up
    have forth := mul_le_mul_of_nonneg_left le way
    have short := mul_le_of_le_one_right way le_one
    exact .inl ⟨by linarith, by linarith⟩
  · have way : goal - start ≤ 0 := sub_nonpos.mpr down
    have forth := mul_le_mul_of_nonpos_left le way
    have short := mul_le_mul_of_nonpos_left le_one way
    exact .inr ⟨by linarith, by linarith⟩

namespace TimedTrack

variable {α : Type} [Field α] [LinearOrder α] [IsStrictOrderedRing α] [Elementary α]

/-- The part of its duration that a track has moved for, once its delay is over. -/
def progress (timed : TimedTrack α) (elapsed : Duration) : α :=
  if timed.duration.nanoseconds = 0 then 1
  else ((elapsed.nanoseconds - timed.delay.nanoseconds : Nat) : α) / timed.duration.nanoseconds

/-- The share of its way that a track has made. -/
def share (timed : TimedTrack α) (elapsed : Duration) : α :=
  if elapsed.nanoseconds < timed.delay.nanoseconds then 0 else timed.easing.apply (timed.progress elapsed)

variable (timed : TimedTrack α)

theorem sample_eq (current : α) (elapsed : Duration) :
    timed.sample current elapsed =
      timed.start.getD current + (timed.goal - timed.start.getD current) * timed.share elapsed := by
  have billion : (1000000000 : α) ≠ 0 := by norm_num
  unfold sample share progress
  split
  · rw [mul_zero, add_zero]
  · simp only [Duration.seconds_eq, div_div_div_cancel_right₀ billion, Arithmetic.ofNat_exact, Nat.cast_one]

theorem progress_mono {elapsed later : Duration} (le : elapsed.nanoseconds ≤ later.nanoseconds) :
    timed.progress elapsed ≤ timed.progress later := by
  unfold progress
  split
  · exact le_rfl
  · exact div_le_div_of_nonneg_right (Nat.cast_le.mpr (Nat.sub_le_sub_right le _)) (Nat.cast_nonneg _)

theorem one_le_progress {elapsed : Duration}
    (past : timed.delay.nanoseconds + timed.duration.nanoseconds ≤ elapsed.nanoseconds) :
    1 ≤ timed.progress elapsed := by
  unfold progress
  split
  · exact le_rfl
  · rename_i lasting
    rw [one_le_div (Nat.cast_pos.mpr (Nat.pos_of_ne_zero lasting)), Nat.cast_le]
    omega

section Steady

variable {timed} (steady : Steady (timed.easing.apply : α → α))
include steady

omit [IsStrictOrderedRing α] in
theorem share_nonneg (elapsed : Duration) : 0 ≤ timed.share elapsed := by
  unfold share
  split
  · exact le_rfl
  · exact steady.nonneg _

theorem share_le_one (elapsed : Duration) : timed.share elapsed ≤ 1 := by
  unfold share
  split
  · exact zero_le_one
  · exact steady.le_one _

theorem share_mono {elapsed later : Duration} (le : elapsed.nanoseconds ≤ later.nanoseconds) :
    timed.share elapsed ≤ timed.share later := by
  by_cases waiting : elapsed.nanoseconds < timed.delay.nanoseconds
  · rw [share, if_pos waiting]
    exact share_nonneg steady later
  · have moving : ¬ later.nanoseconds < timed.delay.nanoseconds := fun before => waiting (Nat.lt_of_le_of_lt le before)
    rw [share, share, if_neg waiting, if_neg moving]
    exact steady.monotone (timed.progress_mono le)

theorem share_of_past {elapsed : Duration}
    (past : timed.delay.nanoseconds + timed.duration.nanoseconds ≤ elapsed.nanoseconds) : timed.share elapsed = 1 := by
  rw [share, if_neg (by omega)]
  exact steady.after _ (timed.one_le_progress past)

/-- A track waits at its start, which is the current value unless one is given, then moves to its goal without ever
turning back or leaving the way between them, and stays at the goal. -/
theorem sample_travels (current : α) :
    let start := timed.start.getD current
    (∀ elapsed, elapsed.nanoseconds < timed.delay.nanoseconds → timed.sample current elapsed = start) ∧
    (∀ elapsed, timed.delay.nanoseconds + timed.duration.nanoseconds ≤ elapsed.nanoseconds →
      timed.sample current elapsed = timed.goal) ∧
    (∀ elapsed, min start timed.goal ≤ timed.sample current elapsed ∧
      timed.sample current elapsed ≤ max start timed.goal) ∧
    (∀ elapsed later, elapsed.nanoseconds ≤ later.nanoseconds →
      |timed.goal - timed.sample current later| ≤ |timed.goal - timed.sample current elapsed| ∧
        timed.sample current later ∈ Set.uIcc (timed.sample current elapsed) timed.goal) ∧
    (timed.start.isSome → ∀ other elapsed, timed.sample other elapsed = timed.sample current elapsed) := by
  intro start
  refine ⟨?_, ?_, ?_, ?_, ?_⟩
  · intro elapsed waiting
    rw [sample_eq, share, if_pos waiting, mul_zero, add_zero]
  · intro elapsed past
    rw [sample_eq, share_of_past steady past, mul_one, add_sub_cancel]
  · intro elapsed
    have between := way_mem_uIcc start timed.goal (share_nonneg steady elapsed)
      (share_le_one steady elapsed)
    rw [mul_zero, add_zero, ← sample_eq] at between
    exact between
  · intro elapsed later le
    have nearer := way_mem_uIcc start timed.goal (share_mono steady le) (share_le_one steady later)
    rw [← sample_eq, ← sample_eq] at nearer
    exact ⟨Set.abs_sub_right_of_mem_uIcc nearer, nearer⟩
  · intro given other elapsed
    obtain ⟨value, known⟩ := Option.isSome_iff_exists.mp given
    rw [sample_eq, sample_eq, known, Option.getD_some, Option.getD_some]

end Steady

/-- A track along a circle of the real numbers, which starts at the current value a while after it was begun. -/
theorem sample_travels_of_circle :
    let timed : TimedTrack ℝ :=
      ⟨.translateX, none, 100, .circleEaseInOut, .ofMilliseconds 200, .ofMilliseconds 100⟩
    Steady (timed.easing.apply : ℝ → ℝ) ∧ timed.sample 20 (.ofMilliseconds 50) = 20 ∧
      timed.sample 20 (.ofMilliseconds 300) = 100 ∧
      |100 - timed.sample 20 (.ofMilliseconds 250)| ≤ |100 - timed.sample 20 (.ofMilliseconds 150)| := by
  intro timed
  have steady : Steady (timed.easing.apply : ℝ → ℝ) := Easing.apply_steady Elementary.lawful_real timed.easing
  obtain ⟨waits, arrives, _, nears, _⟩ := sample_travels steady 20
  exact ⟨steady, waits _ (by decide), arrives _ (by decide), (nears _ _ (by decide)).1⟩

end TimedTrack

end VisualEffects
