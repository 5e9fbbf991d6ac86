import VisualEffects.Animation.Builder

namespace VisualEffects

/-! What a builder records.

A request moves some properties, each from a start of its own, or from the place where such a property starts by
itself, to a goal of its own.  A builder that is used in any way has recorded exactly the requests it accepted,
in the order in which they were made; sizes are accepted as long as the target has one at that moment.
-/

namespace Property

def axis : Property → Axis
  | translateY => .y
  | scaleY => .y
  | height => .y
  | _ => .x

/-- Where a property starts: at the value it is given, else a size at what is measured, and any other property
at its current value. -/
def startFrom (property : Property) : Option Float → Start
  | some value => .explicit value
  | none =>
      match property with
      | width => .measured .x
      | height => .measured .y
      | _ => .current

theorem startFrom_eq_measured {property : Property} {given : Option Float} {axis : Axis}
    (measured : property.startFrom given = .measured axis) : property = .size axis := by
  cases given with
  | some value => cases measured
  | none => cases property <;> cases measured <;> rfl

theorem startFrom_eq_explicit {property : Property} {given : Option Float} {value : Float} :
    property.startFrom given = .explicit value ↔ given = some value := by
  cases given with
  | some other => simp [startFrom]
  | none => cases property <;> simp [startFrom]

end Property

namespace Request

def properties : Request → List Property
  | opacity _ => [.opacity]
  | translateAxis axis _ => [.translate axis]
  | translate _ => [.translateX, .translateY]
  | scale _ => [.scaleX, .scaleY]
  | rotation _ => [.rotation]
  | sizeAxis axis _ => [.size axis]
  | size _ => [.width, .height]
  | offsetAxis _ _ | offset _ | clip _ _ => []

/-- What a request asks for along an axis; of a motion in the plane that is one component. -/
def motion : Request → Axis → Motion Float
  | translate motion, axis | size motion, axis | offset motion, axis =>
      ⟨motion.start.map (·.along axis), motion.goal.along axis, motion.easing⟩
  | opacity motion, _ | translateAxis _ motion, _ | scale motion, _ | rotation motion, _ | sizeAxis _ motion, _
  | offsetAxis _ motion, _ | clip _ motion, _ => motion

/-- The tracks that an accepted request stands for. -/
def expansion (request : Request) : List Track :=
  request.properties.map fun property =>
    let motion := request.motion property.axis
    ⟨property, property.startFrom motion.start, motion.goal, motion.easing⟩

def isSize : Request → Bool
  | sizeAxis _ _ | size _ => true
  | _ => false

/-- Offsets and clips are not supported at all. -/
def isUnsupported : Request → Bool
  | offsetAxis _ _ | offset _ | clip _ _ => true
  | _ => false

def accepts (hasLayoutSize : Bool) (request : Request) : Bool :=
  !request.isUnsupported && (hasLayoutSize || !request.isSize)

/-- The error of a request that is rejected. -/
def rejection : Request → Error
  | offsetAxis axis _ => .cannotAnimate (Json.Choice.title axis ++ " offset")
  | offset _ => .cannotAnimate "offset"
  | clip side _ => .cannotAnimate (Json.Choice.title side ++ " clip")
  | _ => .noLayoutSize

theorem rejection_kind (request : Request) :
    if request.isUnsupported then ∃ text, request.rejection = .unsupportedOperation text
    else ∃ reason, request.rejection = .invalidTargetType reason := by
  cases request <;> exact ⟨_, rfl⟩

/-- Whether a builder for a target accepts a request. -/
def suits [AnimationTarget τ] (request : Request) (target : τ) : Bool :=
  request.accepts (AnimationTarget.layoutSize? target).isSome

theorem suits_of_isSize [AnimationTarget τ] {request : Request} (size : request.isSize = true) (target : τ) :
    request.suits target = (AnimationTarget.layoutSize? target).isSome := by
  cases request with
  | sizeAxis | size => exact Bool.or_false _
  | _ => cases size

theorem expansion_start {request : Request} {track : Track} (member : track ∈ request.expansion) :
    track.start = track.property.startFrom (request.motion track.property.axis).start := by
  obtain ⟨property, _, rfl⟩ := List.mem_map.mp member
  rfl

section Apply

open AnimationBuilder

variable {τ : Type}

theorem run_push (track : Track) (builder : AnimationBuilder τ) :
    (push track).run.run builder = (.ok (), { builder with tracks := builder.tracks ++ [track] }) := rfl

variable [AnimationTarget τ] {request : Request} {builder : AnimationBuilder τ}

theorem run_requireLayoutSize (builder : AnimationBuilder τ) :
    requireLayoutSize.run.run builder =
      (if (AnimationTarget.layoutSize? builder.target).isSome then .ok () else .error .noLayoutSize, builder) := by
  have got : (get : Action (AnimationBuilder τ) (AnimationBuilder τ)).run.run builder = (.ok builder, builder) := rfl
  simp only [requireLayoutSize, run_run_bind, got]
  cases AnimationTarget.layoutSize? builder.target <;> rfl

/-- A request that suits the target of a builder is recorded after what the builder holds. -/
theorem run_apply_of_suits (suited : request.suits builder.target = true) :
    request.apply.run.run builder = (.ok (), { builder with tracks := builder.tracks ++ request.expansion }) := by
  cases request with
  | opacity motion | rotation motion | scale motion | translate motion =>
      obtain ⟨start, goal, easing⟩ := motion
      simp only [apply, AnimationBuilder.opacity, AnimationBuilder.rotation, AnimationBuilder.scale,
        AnimationBuilder.translate, AnimationBuilder.translateAxis, run_run_bind, run_push, List.append_assoc]
      cases start <;> rfl
  | translateAxis axis motion =>
      obtain ⟨start, goal, easing⟩ := motion
      cases start <;> cases axis <;> rfl
  | sizeAxis axis motion =>
      rw [suits_of_isSize rfl] at suited
      obtain ⟨start, goal, easing⟩ := motion
      simp only [apply, AnimationBuilder.sizeAxis, run_run_bind, run_requireLayoutSize, suited, if_pos, run_push]
      cases start <;> cases axis <;> rfl
  | size motion =>
      rw [suits_of_isSize rfl] at suited
      obtain ⟨start, goal, easing⟩ := motion
      simp only [apply, AnimationBuilder.size, run_run_bind, run_requireLayoutSize, suited, if_pos, run_push,
        List.append_assoc]
      cases start <;> rfl
  | offsetAxis | offset | clip => cases suited

/-- A request that does not suit the target of a builder is rejected before it changes the builder. -/
theorem run_apply_of_not_suits (unsuited : request.suits builder.target = false) :
    request.apply.run.run builder = (.error request.rejection, builder) := by
  cases request with
  | sizeAxis | size =>
      rw [suits_of_isSize rfl] at unsuited
      have refused := run_requireLayoutSize builder
      rw [unsuited] at refused
      simp only [apply, AnimationBuilder.sizeAxis, AnimationBuilder.size, run_run_bind, refused]
      rfl
  | offsetAxis | offset | clip => rfl
  | _ => simp [suits, accepts, isSize, isUnsupported] at unsuited

/-- A request is recorded as a whole or not at all. -/
theorem run_apply (request : Request) (builder : AnimationBuilder τ) :
    request.apply.run.run builder =
      if request.suits builder.target then (.ok (), { builder with tracks := builder.tracks ++ request.expansion })
      else (.error request.rejection, builder) := by
  cases suited : request.suits builder.target with
  | true => exact run_apply_of_suits suited
  | false => exact run_apply_of_not_suits suited

end Apply

end Request

namespace AnimationBuilder

/-- What can be done with a builder. -/
inductive Step (τ : Type) where
  | request (request : Request)
  | duration (duration : Duration)
  | delay (delay : Duration)
  | editTarget (edit : τ → τ)
  | materialize (duration : Duration)
  | start
  | startAwaited

/-- Whether a step only reads the builder. -/
def Step.isReading : Step τ → Bool
  | materialize _ | start | startAwaited => true
  | _ => false

variable {σ τ ω : Type} [AnimationTarget τ]

/-- Does one step with a builder and the backend behind it.  The answer is whether the step failed. -/
def perform (backend : AnimationBackend σ τ ω) : Step τ → AnimationBuilder τ × σ →
    Except Error Unit × AnimationBuilder τ × σ
  | .request request, (builder, state) =>
      let (answer, after) := request.apply.run.run builder
      (answer, after, state)
  | .duration duration, (builder, state) => (.ok (), builder.withDuration duration, state)
  | .delay delay, (builder, state) => (.ok (), builder.withDelay delay, state)
  | .editTarget edit, (builder, state) => (.ok (), builder.withTarget edit, state)
  | .materialize duration, (builder, state) =>
      let (answer, after) := (builder.materialize backend duration).run.run state
      (answer.map fun _ => (), builder, after)
  | .start, (builder, state) =>
      let (answer, after) := (builder.start backend).run.run state
      (answer, builder, after)
  | .startAwaited, (builder, state) =>
      let (answer, after) := (builder.startAwaited backend).run.run state
      (answer.map fun _ => (), builder, after)

/-- Does steps one after the other; a step that fails does not end the run. -/
def run (backend : AnimationBackend σ τ ω) : List (Step τ) → AnimationBuilder τ × σ → AnimationBuilder τ × σ
  | [], used => used
  | step :: rest, used => run backend rest (perform backend step used).2

/-- The tracks of the requests that are accepted on the way, for a target as it is at the start. -/
def expansions : τ → List (Step τ) → List Track
  | _, [] => []
  | target, .request request :: rest =>
      (if request.suits target then request.expansion else []) ++ expansions target rest
  | target, .editTarget edit :: rest => expansions (edit target) rest
  | target, _ :: rest => expansions target rest

theorem request_of_suits {builder : AnimationBuilder τ} {request : Request}
    (accepted : request.suits builder.target = true) :
    builder.request request = .ok { builder with tracks := builder.tracks ++ request.expansion } := by
  rw [AnimationBuilder.request, Request.run_apply_of_suits accepted]
  rfl

theorem request_of_not_suits {builder : AnimationBuilder τ} {request : Request}
    (unsuited : request.suits builder.target = false) : builder.request request = .error request.rejection := by
  rw [AnimationBuilder.request, Request.run_apply_of_not_suits unsuited]
  rfl

/-- A step appends its expansion, and what follows it is expanded for the target that it leaves. -/
theorem perform_tracks (backend : AnimationBackend σ τ ω) (step : Step τ) (rest : List (Step τ))
    (builder : AnimationBuilder τ) (state : σ) :
    let after := (perform backend step (builder, state)).2.1
    after.tracks ++ expansions after.target rest = builder.tracks ++ expansions builder.target (step :: rest) := by
  cases step with
  | request request =>
      simp only [perform, Request.run_apply, expansions]
      split
      · exact List.append_assoc ..
      · rfl
  | _ => rfl

theorem run_tracks (backend : AnimationBackend σ τ ω) (steps : List (Step τ)) (builder : AnimationBuilder τ)
    (state : σ) :
    (run backend steps (builder, state)).1.tracks = builder.tracks ++ expansions builder.target steps := by
  induction steps generalizing builder state with
  | nil => exact (List.append_nil _).symm
  | cons step rest ih =>
      rw [← perform_tracks backend step rest builder state]
      exact ih _ _

theorem mem_expansions {target : τ} {steps : List (Step τ)} {track : Track} (recorded : track ∈ expansions target steps) :
    ∃ request, Step.request request ∈ steps ∧ track ∈ request.expansion := by
  induction steps generalizing target with
  | nil => cases recorded
  | cons step rest ih =>
      cases step with
      | request request =>
          rcases List.mem_append.mp recorded with here | later
          · split at here
            · exact ⟨request, List.mem_cons_self, here⟩
            · cases here
          · obtain ⟨other, made, member⟩ := ih later
            exact ⟨other, List.mem_cons_of_mem _ made, member⟩
      | _ =>
          obtain ⟨other, made, member⟩ := ih recorded
          exact ⟨other, List.mem_cons_of_mem _ made, member⟩

/-- A builder that was used in any way has recorded the expansions of the requests that its target suited at that
moment, and nothing else.  It records a further request exactly when the target suits it; a request that is
rejected changes nothing, and neither does a step that only reads.  A recorded start is explicit when the
request gave it, and measured only for the size on the same axis. -/
theorem run_records_expansions (backend : AnimationBackend σ τ ω) (target : τ) (options : AnimationOptions)
    (steps : List (Step τ)) (state : σ) :
    let builder := (run backend steps (ofTarget target options, state)).1
    builder.tracks = expansions target steps ∧
      (∀ request, request.suits builder.target = true →
        builder.request request = .ok { builder with tracks := builder.tracks ++ request.expansion }) ∧
      (∀ request, request.suits builder.target = false →
        ∃ error, (∀ now, perform backend (.request request) (builder, now) = (.error error, builder, now)) ∧
          if request.isUnsupported then ∃ text, error = .unsupportedOperation text
          else ∃ reason, error = .invalidTargetType reason) ∧
      (∀ step now, step.isReading = true → (perform backend step (builder, now)).2.1 = builder) ∧
      (∀ track ∈ builder.tracks, ∀ axis, track.start = .measured axis → track.property = .size axis) ∧
      ∀ track ∈ builder.tracks, ∃ request, Step.request request ∈ steps ∧ track ∈ request.expansion ∧
        ∀ value, track.start = .explicit value ↔ (request.motion track.property.axis).start = some value := by
  intro builder
  have recorded : builder.tracks = expansions target steps := run_tracks backend steps (ofTarget target options) state
  refine ⟨recorded, fun request suited => request_of_suits suited, ?_, ?_, ?_, ?_⟩
  · intro request unsuited
    refine ⟨request.rejection, ?_, request.rejection_kind⟩
    intro now
    simp only [perform, Request.run_apply_of_not_suits unsuited]
  · intro step now reading
    cases step with
    | materialize | start | startAwaited => rfl
    | _ => cases reading
  · intro track member axis measured
    obtain ⟨request, _, expanded⟩ := mem_expansions (recorded ▸ member)
    rw [Request.expansion_start expanded] at measured
    exact Property.startFrom_eq_measured measured
  · intro track member
    obtain ⟨request, made, expanded⟩ := mem_expansions (recorded ▸ member)
    refine ⟨request, made, expanded, ?_⟩
    intro value
    rw [Request.expansion_start expanded]
    exact Property.startFrom_eq_explicit

end AnimationBuilder

end VisualEffects
