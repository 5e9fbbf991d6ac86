import Mathlib.Logic.Function.Basic
import VisualEffects.Proofs.Creation
import VisualEffects.Proofs.Requests

namespace VisualEffects

/-! Builders that share a timeline.

Any number of builders are used in any order, and what they materialize and start is recorded on one timeline,
behind a guard that refuses some animations.  What a call records and answers depends only on its own builder as it is
at that moment, so the timeline holds what the calls recorded one after the other, and each builder is answered as if it
had a timeline of its own.
-/

namespace Timeline

def withCreated (timeline : Timeline) (timed : TimedTrack Float) : Timeline :=
  { timeline with created := timeline.created.push timed }

def withBegun (timeline : Timeline) (_ : TimedTrack Float) : Timeline :=
  { timeline with begun := timeline.begun + 1 }

variable (timeline : Timeline) (animations : List (TimedTrack Float))

theorem foldl_withCreated :
    (animations.foldl withCreated timeline).created.toList = timeline.created.toList ++ animations ∧
      (animations.foldl withCreated timeline).begun = timeline.begun := by
  induction animations generalizing timeline with
  | nil => exact ⟨(List.append_nil _).symm, rfl⟩
  | cons timed rest ih =>
      obtain ⟨created, begun⟩ := ih (timeline.withCreated timed)
      refine ⟨?_, begun⟩
      rw [List.foldl_cons, created, withCreated, Array.toList_push, List.append_assoc, List.singleton_append]

theorem foldl_withBegun :
    (animations.foldl withBegun timeline).created = timeline.created ∧
      (animations.foldl withBegun timeline).begun = timeline.begun + animations.length := by
  induction animations generalizing timeline with
  | nil => exact ⟨rfl, rfl⟩
  | cons timed rest ih =>
      obtain ⟨created, begun⟩ := ih (timeline.withBegun timed)
      refine ⟨created, ?_⟩
      rw [List.foldl_cons, begun, List.length_cons, Nat.add_comm rest.length, ← Nat.add_assoc]
      rfl

end Timeline

namespace AnimationBackend

/-- A backend that never refuses, whose operations are the animations themselves and are finished as soon as they are
begun. -/
structure Records (backend : AnimationBackend σ τ (TimedTrack Float)) (created begun : σ → TimedTrack Float → σ) :
    Prop where
  create : ∀ target timed state, (backend.create target timed).run.run state = (.ok timed, created state timed)
  begin : ∀ timed state, (backend.begin timed).run state = (.atOnce, begun state timed)

theorem record_records : (Timeline.record : AnimationBackend Timeline τ _).Records
    Timeline.withCreated Timeline.withBegun where
  create _ _ _ := rfl
  begin _ _ := rfl

def logging (event : TimedTrack Float → Event (TimedTrack Float)) (change : σ → TimedTrack Float → σ) :
    σ × List (Event (TimedTrack Float)) → TimedTrack Float → σ × List (Event (TimedTrack Float))
  | (state, log), timed => (change state timed, log ++ [event timed])

theorem foldl_logging (event : TimedTrack Float → Event (TimedTrack Float)) (change : σ → TimedTrack Float → σ)
    (animations : List (TimedTrack Float)) (state : σ) (log : List (Event (TimedTrack Float))) :
    animations.foldl (logging event change) (state, log) =
      (animations.foldl change state, log ++ animations.map event) := by
  induction animations generalizing state log with
  | nil => rw [List.map_nil, List.append_nil]; rfl
  | cons timed rest ih =>
      rw [List.foldl_cons, logging, ih, List.append_assoc]
      rfl

theorem Records.logged {backend : AnimationBackend σ τ (TimedTrack Float)} {created begun : σ → TimedTrack Float → σ}
    (records : backend.Records created begun) :
    backend.logged.Records (logging .created created) (logging .begun begun) where
  create target timed := by
    intro (state, log)
    rw [run_create_logged, records.create]
    rfl
  begin timed := by
    intro (state, log)
    change ((backend.begin timed).run state |>.1, (backend.begin timed).run state |>.2, log ++ [.begun timed]) = _
    rw [records.begin]
    rfl

/-- The animations before the first that is refused. -/
def accepted (refusal? : TimedTrack Float → Option Error) (animations : List (TimedTrack Float)) :
    List (TimedTrack Float) :=
  animations.takeWhile fun timed => (refusal? timed).isNone

variable {refusal? : TimedTrack Float → Option Error} {animations : List (TimedTrack Float)}

theorem not_refused_of_mem_accepted {timed : TimedTrack Float} (member : timed ∈ accepted refusal? animations) :
    refusal? timed = none :=
  Option.isNone_iff_eq_none.mp (List.all_eq_true.mp List.all_takeWhile timed member)

theorem accepted_cases (refusal? : TimedTrack Float → Option Error) (animations : List (TimedTrack Float)) :
    accepted refusal? animations = animations ∨
      ∃ refused rest error, animations = accepted refusal? animations ++ refused :: rest ∧
        refusal? refused = some error := by
  cases found : animations.findSome? refusal? with
  | none =>
      have passed : ∀ timed ∈ animations, (refusal? timed).isNone = true := by
        simpa using found
      left
      rw [accepted, ← List.append_nil animations, List.takeWhile_append_of_pos passed]
      rfl
  | some error =>
      obtain ⟨before, refused, rest, split, refuses, passed⟩ := List.findSome?_eq_some_iff.mp found
      have taken : accepted refusal? animations = before := by
        rw [split, accepted, List.takeWhile_append_of_pos, List.takeWhile_cons_of_neg, List.append_nil]
        · simp [refuses]
        · simpa using passed
      exact .inr ⟨refused, rest, error, by rw [taken, ← split], refuses⟩

section
variable {σ τ : Type} {backend : AnimationBackend σ τ (TimedTrack Float)} {created begun : σ → TimedTrack Float → σ}

theorem run_create_of_refused (backend : AnimationBackend σ τ (TimedTrack Float)) (target : τ)
    {timed : TimedTrack Float} {error : Error} (refuses : refusal? timed = some error) (state : σ) :
    ((backend.refusing refusal?).create target timed).run.run state = (.error error, state) := by
  simp only [refusing, refuses]
  rfl

theorem Records.creates (records : backend.Records created begun) (refusal? : TimedTrack Float → Option Error)
    (target : τ) (animations : List (TimedTrack Float)) (state : σ) :
    (backend.refusing refusal?).Creates target state (accepted refusal? animations) (accepted refusal? animations)
      ((accepted refusal? animations).foldl created state) := by
  induction animations generalizing state with
  | nil => exact .nil
  | cons timed rest ih =>
      rw [accepted, List.takeWhile_cons]
      cases refuses : refusal? timed with
      | some error => exact .nil
      | none =>
          refine .cons ?_ (ih (created state timed))
          simp only [refusing, refuses, records.create]

theorem Records.run_beginAll (records : backend.Records created begun) (refusal? : TimedTrack Float → Option Error)
    (animations : List (TimedTrack Float)) (state : σ) :
    (AnimationGroup.beginAll (backend.refusing refusal?) animations).run state =
      (animations.map fun _ => .atOnce, animations.foldl begun state) := by
  induction animations generalizing state with
  | nil => rfl
  | cons timed rest ih =>
      have begins : ((backend.refusing refusal?).begin timed).run state = (.atOnce, begun state timed) :=
        records.begin timed state
      rw [AnimationGroup.beginAll, StateT.run_bind, begins]
      change ((AnimationGroup.beginAll (backend.refusing refusal?) rest >>= _).run (begun state timed)) = _
      rw [StateT.run_bind, ih]
      rfl

end

end AnimationBackend

namespace AnimationBuilder

open AnimationBackend (accepted)

inductive Delivery (ω : Type) where
  | nothing
  | group (group : AnimationGroup ω)
  | completion (completion : GroupCompletion)

variable {σ ρ τ ω ι : Type} [AnimationTarget τ]

/-- What a step hands out, or why it failed. -/
def answer (backend : AnimationBackend σ τ ω) (step : Step τ) (builder : AnimationBuilder τ) (state : σ) :
    Except Error (Delivery ω) :=
  match step with
  | .materialize duration => ((builder.materialize backend duration).run.run state).1.map .group
  | .startAwaited => ((builder.startAwaited backend).run.run state).1.map .completion
  | _ => (perform backend step (builder, state)).1.map fun _ => .nothing

def bound (builder : AnimationBuilder τ) (duration : Duration) : List (TimedTrack Float) :=
  builder.tracks.map (·.resolve (AnimationTarget.layoutSize? builder.target) duration builder.delay)

namespace Step

/-- The animations that a step asks the backend for. -/
def asked (builder : AnimationBuilder τ) : Step τ → List (TimedTrack Float)
  | .materialize lasting => builder.bound lasting
  | .start | .startAwaited => builder.bound builder.duration
  | _ => []

def isStart : Step τ → Bool
  | .start | .startAwaited => true
  | _ => false

/-- What a step hands out that gets the animations it asks for, each of them an operation that is finished as soon as
it is begun. -/
def delivery (animations : List (TimedTrack Float)) : Step τ → Delivery (TimedTrack Float)
  | .materialize lasting => .group ⟨animations, animations, lasting⟩
  | .startAwaited => .completion (.join (animations.map fun _ => .atOnce))
  | _ => .nothing

end Step

/-- A step that was made, with the builder as it was at that moment and with the answer. -/
structure Entry (τ : Type) where
  step : Step τ
  builder : AnimationBuilder τ
  answer : Except Error (Delivery (TimedTrack Float))

namespace Entry

def asked (entry : Entry τ) : List (TimedTrack Float) := entry.step.asked entry.builder

/-- The animations that a step adds to a timeline: all that it asks for if it succeeds, those before the first that is
refused if it fails. -/
def created (refusal? : TimedTrack Float → Option Error) (entry : Entry τ) : List (TimedTrack Float) :=
  match entry.answer with
  | .ok _ => entry.asked
  | .error _ => accepted refusal? entry.asked

/-- The operations that a step begins, which only a start that succeeds does. -/
def begun (entry : Entry τ) : List (TimedTrack Float) :=
  match entry.answer with
  | .ok _ => if entry.step.isStart then entry.asked else []
  | .error _ => []

/-- A step that asks for animations is answered with all of them, or with the error of the first that is refused. -/
def Settled (refusal? : TimedTrack Float → Option Error) (entry : Entry τ) : Prop :=
  (entry.answer = .ok (entry.step.delivery entry.asked) ∧ ∀ timed ∈ entry.asked, refusal? timed = none) ∨
    ∃ refused rest error, entry.answer = .error error ∧ refusal? refused = some error ∧
      entry.asked = entry.created refusal? ++ refused :: rest ∧ ∀ timed ∈ entry.created refusal?, refusal? timed = none

/-- The creations and the begins of a step, one after the other. -/
def play (refusal? : TimedTrack Float → Option Error) (created begun : σ → TimedTrack Float → σ) (state : σ)
    (entry : Entry τ) : σ :=
  entry.begun.foldl begun ((entry.created refusal?).foldl created state)

/-- What a backend that is written down is asked for in a step. -/
def events (refusal? : TimedTrack Float → Option Error) (entry : Entry τ) :
    List (AnimationBackend.Event (TimedTrack Float)) :=
  (entry.created refusal?).map .created ++ entry.begun.map .begun

theorem foldl_play_timeline (refusal? : TimedTrack Float → Option Error) (entries : List (Entry τ))
    (timeline : Timeline) :
    let after := entries.foldl (play refusal? Timeline.withCreated Timeline.withBegun) timeline
    after.created.toList = timeline.created.toList ++ entries.flatMap (·.created refusal?) ∧
      after.begun = timeline.begun + (entries.flatMap (·.begun)).length := by
  induction entries generalizing timeline with
  | nil => exact ⟨(List.append_nil _).symm, rfl⟩
  | cons entry rest ih =>
      obtain ⟨created, begun⟩ := ih (entry.play refusal? Timeline.withCreated Timeline.withBegun timeline)
      obtain ⟨createdHere, countKept⟩ := timeline.foldl_withCreated (entry.created refusal?)
      obtain ⟨createdKept, countHere⟩ :=
        ((entry.created refusal?).foldl Timeline.withCreated timeline).foldl_withBegun entry.begun
      refine ⟨?_, ?_⟩
      · rw [List.foldl_cons, created, play, createdKept, createdHere, List.append_assoc, List.flatMap_cons]
      · rw [List.foldl_cons, begun, play, countHere, countKept, List.flatMap_cons, List.length_append, Nat.add_assoc]

theorem foldl_play_logging (refusal? : TimedTrack Float → Option Error) (created begun : σ → TimedTrack Float → σ)
    (entries : List (Entry τ)) (state : σ) (log : List (AnimationBackend.Event (TimedTrack Float))) :
    entries.foldl (play refusal? (AnimationBackend.logging .created created) (AnimationBackend.logging .begun begun))
        (state, log) =
      (entries.foldl (play refusal? created begun) state, log ++ entries.flatMap (·.events refusal?)) := by
  induction entries generalizing state log with
  | nil => exact Prod.ext rfl (List.append_nil _).symm
  | cons entry rest ih =>
      have here : entry.play refusal? (AnimationBackend.logging .created created)
          (AnimationBackend.logging .begun begun) (state, log) =
          (entry.play refusal? created begun state, log ++ entry.events refusal?) := by
        rw [play, AnimationBackend.foldl_logging, AnimationBackend.foldl_logging, List.append_assoc]
        rfl
      rw [List.foldl_cons, here, ih, List.append_assoc]
      rfl

theorem play_of_not_reading {entry : Entry τ} (quiet : entry.step.isReading = false)
    (refusal? : TimedTrack Float → Option Error) (created begun : σ → TimedTrack Float → σ) (state : σ) :
    entry.play refusal? created begun state = state := by
  obtain ⟨step, builder, answer⟩ := entry
  have nothing : step.asked builder = [] := by
    cases step with
    | materialize | start | startAwaited => cases quiet
    | _ => rfl
  cases answer <;> simp [play, Entry.created, Entry.begun, asked, nothing, accepted]

end Entry

def entry (backend : AnimationBackend σ τ (TimedTrack Float)) (step : Step τ) (builder : AnimationBuilder τ)
    (state : σ) : Entry τ :=
  ⟨step, builder, answer backend step builder state⟩

/-- The entries of steps that are made with one builder, and nothing else is made on the backend. -/
def entries (backend : AnimationBackend σ τ (TimedTrack Float)) :
    List (Step τ) → AnimationBuilder τ → σ → List (Entry τ)
  | [], _, _ => []
  | step :: rest, builder, state =>
      let (_, next, after) := perform backend step (builder, state)
      entry backend step builder state :: entries backend rest next after

/-- A backend has no part in a step that does not read the builder. -/
theorem perform_of_not_reading {step : Step τ} (quiet : step.isReading = false) (left : AnimationBackend σ τ ω)
    (right : AnimationBackend ρ τ ω) (builder : AnimationBuilder τ) (state : σ) (other : ρ) :
    perform left step (builder, state) =
      ((perform right step (builder, other)).1, (perform right step (builder, other)).2.1, state) := by
  cases step with
  | materialize | start | startAwaited => cases quiet
  | _ => rfl

theorem perform_builder (left : AnimationBackend σ τ ω) (right : AnimationBackend ρ τ ω) (step : Step τ)
    (builder : AnimationBuilder τ) (state : σ) (other : ρ) :
    (perform left step (builder, state)).2.1 = (perform right step (builder, other)).2.1 := by
  -- A step that reads the builder uses the backend, but hands the builder back as it was.
  cases reading : step.isReading with
  | false => rw [perform_of_not_reading reading left right builder state other]
  | true =>
      cases step with
      | materialize | start | startAwaited => rfl
      | _ => cases reading

section
variable {backend : AnimationBackend σ τ (TimedTrack Float)} {created begun : σ → TimedTrack Float → σ}
  (records : backend.Records created begun) {refusal? : TimedTrack Float → Option Error}
include records

theorem run_materialize_of_accepted {builder : AnimationBuilder τ} {duration : Duration}
    (all : accepted refusal? (builder.bound duration) = builder.bound duration) (state : σ) :
    (builder.materialize (backend.refusing refusal?) duration).run.run state =
      (.ok ⟨builder.bound duration, builder.bound duration, duration⟩,
        (builder.bound duration).foldl created state) := by
  have creates := records.creates refusal? builder.target (builder.bound duration) state
  rw [all] at creates
  simp only [bound] at creates ⊢
  rw [AnimationBuilder.materialize, AnimationGroup.run_materialize, AnimationBackend.createAll_of_creates creates]

theorem run_materialize_of_refused {builder : AnimationBuilder τ} {duration : Duration} {refused : TimedTrack Float}
    {rest : List (TimedTrack Float)} {error : Error}
    (split : builder.bound duration = accepted refusal? (builder.bound duration) ++ refused :: rest)
    (refuses : refusal? refused = some error) (state : σ) :
    (builder.materialize (backend.refusing refusal?) duration).run.run state =
      (.error error, (accepted refusal? (builder.bound duration)).foldl created state) := by
  have stops : (AnimationGroup.createAll (backend.refusing refusal?) builder.target
      (accepted refusal? (builder.bound duration) ++ refused :: rest)).run.run state = _ :=
    AnimationBackend.createAll_of_refused (records.creates refusal? builder.target (builder.bound duration) state)
      (AnimationBackend.run_create_of_refused backend builder.target refuses _)
  rw [← split] at stops
  simp only [bound] at stops ⊢
  rw [AnimationBuilder.materialize, AnimationGroup.run_materialize, stops]

variable {step : Step τ} {builder : AnimationBuilder τ}

/-- A step gets all the animations it asks for if none of them is refused, and a start begins them. -/
theorem answer_of_accepted (reading : step.isReading = true)
    (all : accepted refusal? (step.asked builder) = step.asked builder) (state : σ) :
    answer (backend.refusing refusal?) step builder state = .ok (step.delivery (step.asked builder)) ∧
      (perform (backend.refusing refusal?) step (builder, state)).2.2 =
        (if step.isStart then step.asked builder else []).foldl begun ((step.asked builder).foldl created state) := by
  cases step with
  | materialize duration =>
      have answered := run_materialize_of_accepted records all state
      simp only [answer, perform, answered]
      exact ⟨rfl, rfl⟩
  | start =>
      have answered := run_materialize_of_accepted records all state
      simp only [answer, perform, AnimationBuilder.start, run_run_bind, answered]
      have begins := records.run_beginAll refusal? (builder.bound builder.duration)
        ((builder.bound builder.duration).foldl created state)
      refine ⟨rfl, ?_⟩
      exact congrArg Prod.snd begins
  | startAwaited =>
      have answered := run_materialize_of_accepted records all state
      simp only [answer, perform, AnimationBuilder.startAwaited, run_run_bind, answered]
      have begins := records.run_beginAll refusal? (builder.bound builder.duration)
        ((builder.bound builder.duration).foldl created state)
      refine ⟨?_, ?_⟩
      · exact congrArg (fun outcome => Except.ok (Delivery.completion (.join outcome.1))) begins
      · exact congrArg Prod.snd begins
  | _ => cases reading

theorem answer_of_refused (reading : step.isReading = true) {refused : TimedTrack Float}
    {rest : List (TimedTrack Float)} {error : Error}
    (split : step.asked builder = accepted refusal? (step.asked builder) ++ refused :: rest)
    (refuses : refusal? refused = some error) (state : σ) :
    answer (backend.refusing refusal?) step builder state = .error error ∧
      (perform (backend.refusing refusal?) step (builder, state)).2.2 =
        (accepted refusal? (step.asked builder)).foldl created state := by
  cases step with
  | materialize duration =>
      have answered := run_materialize_of_refused records split refuses state
      simp only [answer, perform, answered]
      exact ⟨rfl, rfl⟩
  | start | startAwaited =>
      have answered := run_materialize_of_refused records split refuses state
      simp only [answer, perform, AnimationBuilder.start, AnimationBuilder.startAwaited, run_run_bind, answered]
      exact ⟨rfl, rfl⟩
  | _ => cases reading

variable (refusal?)

/-- The backend has what a step created and begun according to its entry. -/
theorem perform_state (step : Step τ) (builder : AnimationBuilder τ) (state : σ) :
    let made := entry (backend.refusing refusal?) step builder state
    (perform (backend.refusing refusal?) step (builder, state)).2.2 = made.play refusal? created begun state := by
  intro made
  cases reading : step.isReading with
  | false =>
      rw [made.play_of_not_reading reading]
      have performed := perform_of_not_reading reading (backend.refusing refusal?) (backend.refusing refusal?) builder
        state state
      rw [performed]
  | true =>
      obtain all | ⟨refused, rest, error, split, refuses⟩ :=
        AnimationBackend.accepted_cases refusal? (step.asked builder)
      · obtain ⟨answered, after⟩ := answer_of_accepted records reading all state
        simp only [made, Entry.play, Entry.created, Entry.begun, entry, answered, after]
        rfl
      · obtain ⟨answered, after⟩ := answer_of_refused records reading split refuses state
        simp only [made, Entry.play, Entry.created, Entry.begun, entry, answered, after]
        rfl

theorem settled_entry {step : Step τ} (reading : step.isReading = true) (builder : AnimationBuilder τ) (state : σ) :
    (entry (backend.refusing refusal?) step builder state).Settled refusal? := by
  obtain all | ⟨refused, rest, error, split, refuses⟩ := AnimationBackend.accepted_cases refusal? (step.asked builder)
  · refine .inl ⟨(answer_of_accepted records reading all state).1, ?_⟩
    intro timed (asked : timed ∈ step.asked builder)
    rw [← all] at asked
    exact AnimationBackend.not_refused_of_mem_accepted asked
  · have answered := (answer_of_refused records reading split refuses state).1
    have made : (entry (backend.refusing refusal?) step builder state).created refusal? =
        accepted refusal? (step.asked builder) := by
      rw [Entry.created, entry, answered]
      rfl
    refine .inr ⟨refused, rest, error, answered, refuses, ?_, ?_⟩
    · rw [made]
      exact split
    · intro timed created
      rw [made] at created
      exact AnimationBackend.not_refused_of_mem_accepted created

/-- What a step is answered does not depend on what was recorded before, or on what else the backend writes down. -/
theorem entry_agrees {other : AnimationBackend ρ τ (TimedTrack Float)}
    {otherCreated otherBegun : ρ → TimedTrack Float → ρ}
    (others : other.Records otherCreated otherBegun) (step : Step τ) (builder : AnimationBuilder τ) (left : σ)
    (right : ρ) :
    entry (backend.refusing refusal?) step builder left = entry (other.refusing refusal?) step builder right := by
  have answers : answer (backend.refusing refusal?) step builder left =
      answer (other.refusing refusal?) step builder right := by
    cases reading : step.isReading with
    | false =>
        have performed := perform_of_not_reading reading (backend.refusing refusal?) (other.refusing refusal?) builder
          left right
        cases step with
        | materialize | start | startAwaited => cases reading
        | _ => simp only [answer, performed]
    | true =>
        obtain all | ⟨refused, rest, error, split, refuses⟩ :=
          AnimationBackend.accepted_cases refusal? (step.asked builder)
        · rw [(answer_of_accepted records reading all left).1, (answer_of_accepted others reading all right).1]
        · rw [(answer_of_refused records reading split refuses left).1,
            (answer_of_refused others reading split refuses right).1]
  rw [entry, entry, answers]

end

end AnimationBuilder

/-- Builders, by name, and the state of the backend they share. -/
structure Stage (σ τ ι : Type) where
  builders : ι → AnimationBuilder τ
  state : σ

namespace Stage

open AnimationBuilder (Step Entry)

variable {σ ρ τ ι : Type} [AnimationTarget τ] [DecidableEq ι]

def call (backend : AnimationBackend σ τ (TimedTrack Float)) (stage : Stage σ τ ι) (name : ι) (step : Step τ) :
    Entry τ × Stage σ τ ι :=
  let (_, next, after) := AnimationBuilder.perform backend step (stage.builders name, stage.state)
  (AnimationBuilder.entry backend step (stage.builders name) stage.state,
    ⟨Function.update stage.builders name next, after⟩)

/-- Makes steps one after the other, each with the builder of some name. -/
def run (backend : AnimationBackend σ τ (TimedTrack Float)) :
    List (ι × Step τ) → Stage σ τ ι → List (ι × Entry τ) × Stage σ τ ι
  | [], stage => ([], stage)
  | (name, step) :: rest, stage =>
      let (entry, next) := stage.call backend name step
      let (entries, last) := run backend rest next
      ((name, entry) :: entries, last)

section
variable {backend : AnimationBackend σ τ (TimedTrack Float)} {created begun : σ → TimedTrack Float → σ}
  {other : AnimationBackend ρ τ (TimedTrack Float)} {otherCreated otherBegun : ρ → TimedTrack Float → ρ}
  {refusal? : TimedTrack Float → Option Error}

theorem run_state (records : backend.Records created begun) (steps : List (ι × Step τ)) (stage : Stage σ τ ι) :
    let outcome := run (backend.refusing refusal?) steps stage
    outcome.2.state = (outcome.1.map (·.2)).foldl (Entry.play refusal? created begun) stage.state := by
  induction steps generalizing stage with
  | nil => rfl
  | cons made rest ih =>
      obtain ⟨name, step⟩ := made
      intro outcome
      have played := AnimationBuilder.perform_state records refusal? step (stage.builders name) stage.state
      have later := ih (stage.call (backend.refusing refusal?) name step).2
      simp only [outcome, run, List.map_cons, List.foldl_cons]
      rw [later]
      exact congrArg (List.foldl _ · _) played

theorem run_entries_agree (records : backend.Records created begun) (others : other.Records otherCreated otherBegun)
    (steps : List (ι × Step τ)) (builders : ι → AnimationBuilder τ) (left : σ) (right : ρ) :
    (run (backend.refusing refusal?) steps ⟨builders, left⟩).1 =
      (run (other.refusing refusal?) steps ⟨builders, right⟩).1 := by
  induction steps generalizing builders left right with
  | nil => rfl
  | cons made rest ih =>
      obtain ⟨name, step⟩ := made
      have entries := AnimationBuilder.entry_agrees records refusal? others step (builders name) left right
      have builder := AnimationBuilder.perform_builder (backend.refusing refusal?) (other.refusing refusal?) step
        (builders name) left right
      simp only [run, call]
      rw [entries, builder, ih]

/-- Each builder is answered as if it was used alone. -/
theorem run_entries_of_name (records : backend.Records created begun) (others : other.Records otherCreated otherBegun)
    (steps : List (ι × Step τ)) (name : ι) (builders : ι → AnimationBuilder τ) (state : σ) (alone : ρ) :
    ((run (backend.refusing refusal?) steps ⟨builders, state⟩).1.filter (·.1 = name)).map (·.2) =
      AnimationBuilder.entries (other.refusing refusal?) ((steps.filter (·.1 = name)).map (·.2)) (builders name)
        alone := by
  induction steps generalizing builders state alone with
  | nil => rfl
  | cons made rest ih =>
      obtain ⟨called, step⟩ := made
      simp only [run, call]
      -- A step of another name changes the state of the backend, which the induction leaves free, and no own builder.
      by_cases own : called = name
      · subst own
        have entries := AnimationBuilder.entry_agrees records refusal? others step (builders called) state alone
        have builder := AnimationBuilder.perform_builder (backend.refusing refusal?) (other.refusing refusal?) step
          (builders called) state alone
        rw [List.filter_cons_of_pos (by simp), List.filter_cons_of_pos (by simp), List.map_cons, List.map_cons, ih,
          AnimationBuilder.entries, entries, Function.update_self, builder]
      · rw [List.filter_cons_of_neg (by simpa using own), List.filter_cons_of_neg (by simpa using own), ih,
          Function.update_of_ne (Ne.symm own)]

theorem settled_of_mem_run (records : backend.Records created begun) {steps : List (ι × Step τ)} {stage : Stage σ τ ι}
    {made : ι × Entry τ} (member : made ∈ (run (backend.refusing refusal?) steps stage).1)
    (reading : made.2.step.isReading = true) : made.2.Settled refusal? := by
  induction steps generalizing stage with
  | nil => cases member
  | cons first rest ih =>
      obtain ⟨name, step⟩ := first
      rcases List.mem_cons.mp member with here | later
      · subst here
        exact AnimationBuilder.settled_entry records refusal? reading (stage.builders name) stage.state
      · exact ih later

end

/-- However builders that share a timeline are used, the timeline holds what each call got for its own builder as it
was at that moment, in the order of the calls: all it asked for if the call succeeded, and otherwise what comes before
the first animation that is refused, whose error is the answer.  What is begun are the operations of the starts that
succeeded, once for each start and in the order of the requests.  Each builder is answered as if it was used alone, on
any other timeline. -/
theorem run_accounts (refusal? : TimedTrack Float → Option Error) (builders : ι → AnimationBuilder τ)
    (timeline : Timeline) (log : List (AnimationBackend.Event (TimedTrack Float))) (steps : List (ι × Step τ)) :
    let recorder : AnimationBackend Timeline τ (TimedTrack Float) := Timeline.record
    let outcome := run (recorder.refusing refusal?) steps ⟨builders, timeline⟩
    let entries := outcome.1.map (·.2)
    outcome.2.state.created.toList = timeline.created.toList ++ entries.flatMap (·.created refusal?) ∧
    outcome.2.state.begun = timeline.begun + (entries.flatMap (·.begun)).length ∧
    (run (recorder.logged.refusing refusal?) steps ⟨builders, timeline, log⟩).2.state =
      (outcome.2.state, log ++ entries.flatMap (·.events refusal?)) ∧
    (∀ entry ∈ entries, entry.step.isReading = true → entry.Settled refusal?) ∧
    ∀ name alone, (outcome.1.filter (·.1 = name)).map (·.2) =
      AnimationBuilder.entries (recorder.refusing refusal?) ((steps.filter (·.1 = name)).map (·.2)) (builders name)
        alone := by
  intro recorder outcome entries
  have records : recorder.Records Timeline.withCreated Timeline.withBegun := AnimationBackend.record_records
  have state : outcome.2.state = entries.foldl (Entry.play refusal? Timeline.withCreated Timeline.withBegun) timeline :=
    run_state records steps ⟨builders, timeline⟩
  obtain ⟨created, begun⟩ := Entry.foldl_play_timeline refusal? entries timeline
  refine ⟨?_, ?_, ?_, ?_, ?_⟩
  · rw [state, created]
  · rw [state, begun]
  · have same : outcome.1 = (run (recorder.logged.refusing refusal?) steps ⟨builders, timeline, log⟩).1 :=
      run_entries_agree records records.logged steps builders timeline (timeline, log)
    rw [run_state records.logged, ← same, state]
    exact Entry.foldl_play_logging refusal? Timeline.withCreated Timeline.withBegun entries timeline log
  · intro entry member reading
    obtain ⟨made, inside, rfl⟩ := List.mem_map.mp member
    exact settled_of_mem_run records inside reading
  · intro name alone
    exact run_entries_of_name records records steps name builders timeline alone

end Stage

end VisualEffects
