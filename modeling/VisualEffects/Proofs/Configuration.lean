import VisualEffects.Animation.Script
import VisualEffects.Proofs.Requests

namespace VisualEffects

/-! Configuring a builder from a script.

A script stands for a list of calls: its timing, as far as it gives any, and then its steps.  Configuring makes these
calls up to the first that is rejected, which says what was recorded, what is answered, and that a rejected script
leaves the builder where the script without the rejected step and all after it would leave it.
-/

namespace AnimationBuilder

variable {σ τ ω : Type}

/-- Does steps one after the other up to the first that fails, with the answer of that one. -/
def runUntilFailure [AnimationTarget τ] (backend : AnimationBackend σ τ ω) : List (Step τ) → AnimationBuilder τ × σ →
    Except Error Unit × AnimationBuilder τ × σ
  | [], used => (.ok (), used)
  | step :: rest, used =>
      match perform backend step used with
      | (.ok _, next) => runUntilFailure backend rest next
      | (.error error, next) => (.error error, next)

/-- A builder that has recorded further requests. -/
def recording (builder : AnimationBuilder τ) (requests : List Request) : AnimationBuilder τ :=
  { builder with tracks := builder.tracks ++ requests.flatMap Request.expansion }

@[simp] theorem target_recording (builder : AnimationBuilder τ) (requests : List Request) :
    (builder.recording requests).target = builder.target := rfl

@[simp] theorem recording_nil (builder : AnimationBuilder τ) : builder.recording [] = builder := by
  simp [recording]

theorem recording_cons (builder : AnimationBuilder τ) (request : Request) (rest : List Request) :
    builder.recording (request :: rest) = (builder.recording [request]).recording rest := by
  simp [recording]

theorem run_apply_recording [AnimationTarget τ] {builder : AnimationBuilder τ} {request : Request}
    (suited : request.suits builder.target = true) :
    request.apply.run.run builder = (.ok (), builder.recording [request]) := by
  simp [Request.run_apply_of_suits suited, recording]

end AnimationBuilder

namespace AnimationScript

open AnimationBuilder (Step runUntilFailure)

variable {σ τ ω : Type}

/-- The calls that a script stands for. -/
def calls (script : AnimationScript) : List (Step τ) :=
  script.durationMs.toList.map (fun count => .duration (.ofMilliseconds count)) ++
    script.delayMs.toList.map (fun count => .delay (.ofMilliseconds count)) ++ script.steps.map .request

/-- The script with its first steps only. -/
def cut (script : AnimationScript) (count : Nat) : AnimationScript :=
  { script with steps := script.steps.take count }

@[simp] theorem target_setTiming (script : AnimationScript) (builder : AnimationBuilder τ) :
    (script.setTiming builder).target = builder.target := by
  unfold setTiming
  cases script.durationMs <;> cases script.delayMs <;> rfl

theorem setTiming_eq (script : AnimationScript) (builder : AnimationBuilder τ) :
    script.setTiming builder =
      { builder with
        duration := script.durationMs.elim builder.duration .ofMilliseconds
        delay := script.delayMs.elim builder.delay .ofMilliseconds } := by
  unfold setTiming
  cases script.durationMs <;> cases script.delayMs <;> rfl

variable [AnimationTarget τ]

theorem runUntilFailure_requests (backend : AnimationBackend σ τ ω) (steps : List Request)
    (builder : AnimationBuilder τ) (state : σ) :
    runUntilFailure backend (steps.map .request) (builder, state) =
      ((recordAll steps builder).2, (recordAll steps builder).1, state) := by
  induction steps generalizing builder with
  | nil => rfl
  | cons step rest ih =>
      rw [List.map_cons, runUntilFailure, recordAll, AnimationBuilder.perform]
      obtain ⟨answer, next⟩ := step.apply.run.run builder
      cases answer with
      | error error => rfl
      | ok _ => exact ih next

theorem runUntilFailure_calls (backend : AnimationBackend σ τ ω) (script : AnimationScript)
    (builder : AnimationBuilder τ) (state : σ) :
    runUntilFailure backend script.calls (builder, state) =
      ((script.configure builder).2, (script.configure builder).1, state) := by
  rw [configure, ← runUntilFailure_requests backend, calls, setTiming]
  cases script.durationMs <;> cases script.delayMs <;> rfl

theorem recordAll_append {before : List Request} {builder next : AnimationBuilder τ}
    (recorded : recordAll before builder = (next, .ok ())) (rest : List Request) :
    recordAll (before ++ rest) builder = recordAll rest next := by
  induction before generalizing builder with
  | nil =>
      cases recorded
      rfl
  | cons step others ih =>
      rw [List.cons_append, recordAll]
      rw [recordAll] at recorded
      generalize step.apply.run.run builder = made at recorded ⊢
      obtain ⟨answer, after⟩ := made
      cases answer with
      | error error => cases recorded
      | ok _ => exact ih recorded

theorem recordAll_of_suits {steps : List Request} {builder : AnimationBuilder τ}
    (suited : ∀ step ∈ steps, step.suits builder.target = true) :
    recordAll steps builder = (builder.recording steps, .ok ()) := by
  induction steps generalizing builder with
  | nil => rw [recordAll, AnimationBuilder.recording_nil]
  | cons step rest ih =>
      obtain ⟨here, others⟩ := List.forall_mem_cons.mp suited
      rw [recordAll, AnimationBuilder.run_apply_recording here, builder.recording_cons step rest]
      exact ih others

/-- The first rejected step ends the recording with its own error. -/
theorem recordAll_of_rejected {before : List Request} {step : Request} {builder : AnimationBuilder τ}
    (suited : ∀ earlier ∈ before, earlier.suits builder.target = true)
    (unsuited : step.suits (builder.recording before).target = false) (after : List Request) :
    recordAll (before ++ step :: after) builder = (builder.recording before, .error step.rejection) := by
  rw [recordAll_append (recordAll_of_suits suited), recordAll, Request.run_apply_of_not_suits unsuited]

/-- Some step is the first that a target does not suit, unless it suits them all. -/
theorem suits_all_or_first (steps : List Request) (target : τ) :
    (∀ step ∈ steps, step.suits target = true) ∨
      ∃ before step after, steps = before ++ step :: after ∧ (∀ earlier ∈ before, earlier.suits target = true) ∧
        step.suits target = false := by
  induction steps with
  | nil => exact .inl (List.forall_mem_nil _)
  | cons step rest ih =>
      cases suited : step.suits target with
      | false => exact .inr ⟨[], step, rest, rfl, List.forall_mem_nil _, suited⟩
      | true =>
          rcases ih with all | ⟨before, next, after, parted, earlier, rejected⟩
          · exact .inl (List.forall_mem_cons.mpr ⟨suited, all⟩)
          · exact .inr ⟨step :: before, next, after, by rw [parted, List.cons_append],
              List.forall_mem_cons.mpr ⟨suited, earlier⟩, rejected⟩

theorem recordAll_eq_ok_iff {steps : List Request} {builder : AnimationBuilder τ} :
    (recordAll steps builder).2 = .ok () ↔ ∀ step ∈ steps, step.suits builder.target = true := by
  constructor
  · intro recorded
    rcases suits_all_or_first steps builder.target with all | ⟨before, step, after, parted, earlier, unsuited⟩
    · exact all
    · have unsuited : step.suits (builder.recording before).target = false := unsuited
      rw [parted, recordAll_of_rejected earlier unsuited after] at recorded
      cases recorded
  · intro suited
    rw [recordAll_of_suits suited]

theorem suits_static {request : Request} {target : StaticTarget} :
    request.suits target = true ↔
      request.isUnsupported = false ∧ (target.size.isSome = true ∨ request.isSize = false) := by
  simp only [Request.suits, Request.accepts, AnimationTarget.layoutSize?, Option.isSome_map, Bool.and_eq_true,
    Bool.or_eq_true, Bool.not_eq_true']

/-- Configuring a builder is making the calls of the script up to the first that is rejected.  It succeeds exactly when
the target of the builder suits every step, and then all of them are recorded after what the builder held, under the
timing of the script.  When a step is the first that is rejected, the answer is the error with which the builder
rejects it, and the builder is the one that the script cut before that step leaves.  A new builder for the target of the
script is configured exactly when the script asks for no offset or clip, and for sizes only of a target that has
one. -/
theorem configure_until_rejected (script : AnimationScript) (builder : AnimationBuilder τ) :
    (∀ {σ ω : Type} (backend : AnimationBackend σ τ ω) (state : σ),
      runUntilFailure backend script.calls (builder, state) =
        ((script.configure builder).2, (script.configure builder).1, state)) ∧
    ((script.configure builder).2 = .ok () ↔ ∀ step ∈ script.steps, step.suits builder.target = true) ∧
    ((script.configure builder).2 = .ok () →
      (script.configure builder).1 =
        { builder with
          tracks := builder.tracks ++ script.steps.flatMap Request.expansion
          duration := script.durationMs.elim builder.duration .ofMilliseconds
          delay := script.delayMs.elim builder.delay .ofMilliseconds }) ∧
    (∀ index step, script.steps[index]? = some step →
      (∀ earlier ∈ script.steps.take index, earlier.suits builder.target = true) →
      step.suits builder.target = false →
      let left := (script.cut index).configure builder
      left.2 = .ok () ∧ ∃ error, left.1.request step = .error error ∧
        script.configure builder = (left.1, .error error) ∧
        if step.isUnsupported then ∃ text, error = .unsupportedOperation text
        else ∃ reason, error = .invalidTargetType reason) ∧
    ∀ options, (script.configure (AnimationBuilder.ofTarget script.target options)).2 = .ok () ↔
      (∀ step ∈ script.steps, step.isUnsupported = false) ∧
        ((∀ step ∈ script.steps, step.isSize = false) ∨ script.target.size.isSome = true) := by
  refine ⟨fun backend state => runUntilFailure_calls backend script builder state, ?_, ?_, ?_, ?_⟩
  · rw [configure, recordAll_eq_ok_iff, target_setTiming]
  · intro configured
    rw [configure, recordAll_eq_ok_iff] at configured
    rw [configure, recordAll_of_suits configured, setTiming_eq]
    rfl
  · intro index step found suited unsuited left
    have earlier : ∀ request ∈ script.steps.take index, request.suits (script.setTiming builder).target = true := by
      simpa only [target_setTiming] using suited
    have cut : left = ((script.setTiming builder).recording (script.steps.take index), .ok ()) :=
      recordAll_of_suits earlier
    have unsuited : step.suits ((script.setTiming builder).recording (script.steps.take index)).target = false := by
      simpa only [AnimationBuilder.target_recording, target_setTiming] using unsuited
    have parted : script.steps = script.steps.take index ++ step :: script.steps.drop (index + 1) := by
      obtain ⟨within, same⟩ := List.getElem?_eq_some_iff.mp found
      rw [← same, List.getElem_cons_drop, List.take_append_drop]
    rw [cut]
    refine ⟨rfl, step.rejection, AnimationBuilder.request_of_not_suits unsuited, ?_, step.rejection_kind⟩
    rw [configure, parted, recordAll_of_rejected earlier unsuited]
    rw [← parted]
  · intro options
    rw [configure, recordAll_eq_ok_iff, target_setTiming]
    simp only [AnimationBuilder.ofTarget, suits_static]
    constructor
    · intro suited
      refine ⟨fun step member => (suited step member).1, ?_⟩
      cases sized : script.target.size.isSome with
      | true => exact .inr rfl
      | false => exact .inl fun step member => by simpa [sized] using (suited step member).2
    · rintro ⟨supported, sizes⟩ step member
      exact ⟨supported step member, sizes.symm.imp_right fun none => none step member⟩

end AnimationScript

end VisualEffects
