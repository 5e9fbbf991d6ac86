import VisualEffects.Animation.Builder

namespace VisualEffects

/-! What materializing a group asks of a backend.

The tracks are bound to their timing first, for the size that the target has at that moment.  Then an operation
is created for each of them in order, up to the first that is refused; nothing is begun.
-/

namespace AnimationBackend

/-- What a backend was asked to do. -/
inductive Event (ω : Type) where
  | created (timed : TimedTrack Float)
  | begun (operation : ω)

/-- A backend that also writes down what it is asked to do, in order. -/
def logged (backend : AnimationBackend σ τ ω) : AnimationBackend (σ × List (Event ω)) τ ω where
  create target timed := ExceptT.mk fun (state, log) =>
    let (answer, after) := (backend.create target timed).run.run state
    (answer, after, log ++ [.created timed])
  begin operation := fun (state, log) =>
    let (completion, after) := (backend.begin operation).run state
    (completion, after, log ++ [.begun operation])

/-- Creations that all succeed, each in the state that the one before left. -/
inductive Creates (backend : AnimationBackend σ τ ω) (target : τ) :
    σ → List (TimedTrack Float) → List ω → σ → Prop
  | nil : Creates backend target state [] [] state
  | cons (made : (backend.create target timed).run.run before = (.ok operation, during))
      (others : Creates backend target during rest operations after) :
      Creates backend target before (timed :: rest) (operation :: operations) after

variable {σ τ ω : Type} {backend : AnimationBackend σ τ ω} {target : τ} {before during after : σ}
  {animations rest : List (TimedTrack Float)} {operations : List ω}

theorem run_create_logged (backend : AnimationBackend σ τ ω) (target : τ) (timed : TimedTrack Float) (state : σ)
    (log : List (Event ω)) :
    (backend.logged.create target timed).run.run (state, log) =
      (((backend.create target timed).run.run state).1, ((backend.create target timed).run.run state).2,
        log ++ [.created timed]) := rfl

theorem Creates.length (creates : backend.Creates target before animations operations after) :
    operations.length = animations.length := by
  induction creates with
  | nil => rfl
  | cons _ _ ih => rw [List.length_cons, List.length_cons, ih]

theorem Creates.logged (creates : backend.Creates target before animations operations after) (log : List (Event ω)) :
    backend.logged.Creates target (before, log) animations operations (after, log ++ animations.map .created) := by
  induction creates generalizing log with
  | nil => simpa using Creates.nil
  | @cons timed _ _ _ _ _ _ made _ ih =>
      have later := ih (log ++ [.created timed])
      rw [List.append_assoc, List.singleton_append] at later
      refine .cons ?_ later
      rw [run_create_logged, made]

theorem createAll_of_creates (creates : backend.Creates target before animations operations after) :
    (AnimationGroup.createAll backend target animations).run.run before = (.ok operations, after) := by
  induction creates with
  | nil => rfl
  | cons made _ ih =>
      simp only [AnimationGroup.createAll, run_run_bind, made, ih]
      rfl

theorem createAll_of_refused (creates : backend.Creates target before animations operations during)
    {refused : TimedTrack Float} {error : Error}
    (refuses : (backend.create target refused).run.run during = (.error error, after)) :
    (AnimationGroup.createAll backend target (animations ++ refused :: rest)).run.run before =
      (.error error, after) := by
  induction creates with
  | nil => simp only [List.nil_append, AnimationGroup.createAll, run_run_bind, refuses]
  | cons made _ ih => simp only [List.cons_append, AnimationGroup.createAll, run_run_bind, made, ih refuses]

/-- Creations either all succeed, or succeed up to one that is refused. -/
theorem creates_or_refuses (backend : AnimationBackend σ τ ω) (target : τ) (before : σ)
    (animations : List (TimedTrack Float)) :
    (∃ operations after, backend.Creates target before animations operations after) ∨
      ∃ made refused rest operations during error after, animations = made ++ refused :: rest ∧
        backend.Creates target before made operations during ∧
        (backend.create target refused).run.run during = (.error error, after) := by
  induction animations generalizing before with
  | nil => exact .inl ⟨[], before, .nil⟩
  | cons timed rest ih =>
      cases answered : (backend.create target timed).run.run before with
      | mk answer during =>
          cases answer with
          | error error => exact .inr ⟨[], timed, rest, [], before, error, during, rfl, .nil, answered⟩
          | ok operation =>
              obtain ⟨operations, after, others⟩ |
                ⟨made, refused, later, operations, middle, error, after, rfl, creates, refuses⟩ := ih during
              · exact .inl ⟨_, after, .cons answered others⟩
              · exact .inr ⟨timed :: made, refused, later, _, middle, error, after, rfl,
                  .cons answered creates, refuses⟩

end AnimationBackend

namespace AnimationGroup

variable {σ τ ω : Type} [AnimationTarget τ]

theorem run_materialize (backend : AnimationBackend σ τ ω) (target : τ) (tracks : List Track)
    (duration delay : Duration) (before : σ) :
    let animations := tracks.map (·.resolve (AnimationTarget.layoutSize? target) duration delay)
    (materialize backend target tracks duration delay).run.run before =
      match (createAll backend target animations).run.run before with
      | (.ok operations, after) => (.ok ⟨animations, operations, duration⟩, after)
      | (.error error, after) => (.error error, after) := by
  intro animations
  simp only [materialize, run_run_bind, animations]
  rcases (createAll backend target _).run.run before with ⟨error | operations, after⟩ <;> rfl

/-- The start of an animation is the one its track gives, or the measured size on an axis that the track falls
back to and the target leaves to the layout; otherwise there is none. -/
theorem start_resolve (track : Track) (size : Option LayoutSize) (duration delay : Duration) (value : Float) :
    (track.resolve size duration delay).start = some value ↔
      track.start = .explicit value ∨
        ∃ axis present, track.start = .measured axis ∧ size = some present ∧
          (present.authored.along axis).isNaN = true ∧ value = present.measured.along axis := by
  cases given : track.start with
  | current => simp [Track.resolve, Start.resolve, given]
  | explicit other => simp [Track.resolve, Start.resolve, given]
  | measured axis =>
      cases size with
      | none => simp [Track.resolve, Start.resolve, given]
      | some present =>
          have fallback : (track.resolve (some present) duration delay).start = present.measuredFallback? axis := by
            rw [Track.resolve, given]
            rfl
          rw [fallback, LayoutSize.measuredFallback?]
          constructor
          · intro measured
            split at measured
            · rename_i unresolved
              exact .inr ⟨axis, present, rfl, rfl, unresolved, (Option.some.inj measured).symm⟩
            · cases measured
          · rintro (explicit | ⟨_, _, same, here, unresolved, rfl⟩)
            · cases explicit
            · cases same
              cases here
              rw [if_pos unresolved]

theorem isLayoutDependent_iff (timed : TimedTrack Float) :
    timed.isLayoutDependent = true ↔ timed.property = .width ∨ timed.property = .height := by
  cases timed with
  | mk property => cases property <;> simp [TimedTrack.isLayoutDependent, Property.isLayoutDependent]

/-- Materializing creates an operation for each track in order, on any backend: for all of them, or up to the
first that the backend refuses with the error that is the answer, and it asks the backend for nothing else.  A
backend that refuses nothing is always left with a whole group.  An animation is its track with the timing of the
group and a start that depends on the layout only where the track falls back to it; groups of the same tracks
differ in their duration alone. -/
theorem materialize_creates_in_order (backend : AnimationBackend σ τ ω) (target : τ) (tracks : List Track)
    (duration delay : Duration) (before : σ) (log : List (AnimationBackend.Event ω)) :
    let size := AnimationTarget.layoutSize? target
    let animations : List (TimedTrack Float) := tracks.map (·.resolve size duration delay)
    ((∃ operations after, backend.Creates target before animations operations after ∧
        operations.length = tracks.length ∧
        (materialize backend target tracks duration delay).run.run before =
          (.ok ⟨animations, operations, duration⟩, after) ∧
        (materialize backend.logged target tracks duration delay).run.run (before, log) =
          (.ok ⟨animations, operations, duration⟩, after, log ++ animations.map .created)) ∨
      ∃ made refused rest operations during error after, animations = made ++ refused :: rest ∧
        backend.Creates target before made operations during ∧
        (backend.create target refused).run.run during = (.error error, after) ∧
        (materialize backend target tracks duration delay).run.run before = (.error error, after) ∧
        (materialize backend.logged target tracks duration delay).run.run (before, log) =
          (.error error, after, log ++ (made ++ [refused]).map .created)) ∧
    ((∀ timed state, ∃ operation after, (backend.create target timed).run.run state = (.ok operation, after)) →
      ∃ group after, (materialize backend target tracks duration delay).run.run before = (.ok group, after)) ∧
    (∀ (position : Nat) (track : Track), tracks[position]? = some track →
      ∃ animation : TimedTrack Float, animations[position]? = some animation ∧
        animation.property = track.property ∧ animation.goal = track.goal ∧ animation.easing = track.easing ∧
        animation.duration = duration ∧ animation.delay = delay ∧
        (animation.isLayoutDependent = true ↔ track.property = .width ∨ track.property = .height) ∧
        ∀ value, animation.start = some value ↔
          track.start = .explicit value ∨
            ∃ axis present, track.start = .measured axis ∧ size = some present ∧
              (present.authored.along axis).isNaN = true ∧ value = present.measured.along axis) ∧
    ∀ other, tracks.map (·.resolve size other delay) = animations.map ({ · with duration := other }) := by
  intro size animations
  refine ⟨?_, ?_, ?_, ?_⟩
  · rw [run_materialize, run_materialize]
    obtain ⟨operations, after, creates⟩ |
      ⟨made, refused, rest, operations, during, error, after, split, creates, refuses⟩ :=
      AnimationBackend.creates_or_refuses backend target before animations
    · refine .inl ⟨operations, after, creates, ?_, ?_, ?_⟩
      · rw [creates.length, List.length_map]
      · rw [AnimationBackend.createAll_of_creates creates]
      · rw [AnimationBackend.createAll_of_creates (creates.logged log)]
    · refine .inr ⟨made, refused, rest, operations, during, error, after, split, creates, refuses, ?_, ?_⟩
      · simp only [animations, size] at split
        rw [split, AnimationBackend.createAll_of_refused creates refuses]
      · have refusesLogged := AnimationBackend.run_create_logged backend target refused during
          (log ++ made.map .created)
        rw [refuses, List.append_assoc, ← List.map_singleton, ← List.map_append] at refusesLogged
        simp only [animations, size] at split
        rw [split, AnimationBackend.createAll_of_refused (creates.logged log) refusesLogged]
  · intro willing
    obtain ⟨operations, after, creates⟩ | ⟨_, refused, _, _, during, error, _, _, _, refuses⟩ :=
      AnimationBackend.creates_or_refuses backend target before animations
    · refine ⟨⟨animations, operations, duration⟩, after, ?_⟩
      rw [run_materialize, AnimationBackend.createAll_of_creates creates]
    · obtain ⟨operation, later, succeeds⟩ := willing refused during
      rw [refuses] at succeeds
      cases succeeds
  · intro position track found
    refine ⟨track.resolve size duration delay, ?_, rfl, rfl, rfl, rfl, rfl, isLayoutDependent_iff _, ?_⟩
    · simp only [animations, List.getElem?_map, found, Option.map_some]
    · exact start_resolve track size duration delay
  · intro other
    simp only [animations, List.map_map]
    rfl

end AnimationGroup

end VisualEffects
