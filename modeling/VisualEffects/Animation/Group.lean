import VisualEffects.Animation.Completion
import VisualEffects.Animation.Track
import VisualEffects.Effect.Backend

namespace VisualEffects

/-! Groups: tracks bound to one duration on one backend, begun together. -/

/-- Where animations run.  An operation is created for each of them, and begun any number of times. -/
structure AnimationBackend (σ τ ω : Type) where
  create : τ → TimedTrack Float → Action σ ω
  begin : ω → StateM σ Completion

/-- A backend that refuses some animations before `backend` sees them. -/
def AnimationBackend.refusing (refusal? : TimedTrack Float → Option Error) (backend : AnimationBackend σ τ ω) :
    AnimationBackend σ τ ω where
  create target timed :=
    match refusal? timed with
    | some error => throw error
    | none => backend.create target timed
  begin := backend.begin

structure AnimationGroup (ω : Type) where
  animations : List (TimedTrack Float)
  operations : List ω
  duration : Duration

namespace AnimationGroup

/-- Creates an operation for every animation, up to the first that is refused. -/
def createAll (backend : AnimationBackend σ τ ω) (target : τ) : List (TimedTrack Float) → Action σ (List ω)
  | [] => pure []
  | timed :: rest => do
      let operation ← backend.create target timed
      let others ← createAll backend target rest
      return operation :: others

/-- Binds tracks to a duration and a delay, for the size that the target has now. -/
def materialize [AnimationTarget τ] (backend : AnimationBackend σ τ ω) (target : τ) (tracks : List Track)
    (duration delay : Duration) : Action σ (AnimationGroup ω) := do
  let size := AnimationTarget.layoutSize? target
  let animations := tracks.map (·.resolve size duration delay)
  let operations ← createAll backend target animations
  return ⟨animations, operations, duration⟩

def length (group : AnimationGroup ω) : Nat := group.operations.length

def isEmpty (group : AnimationGroup ω) : Bool := group.operations.isEmpty

def beginAll (backend : AnimationBackend σ τ ω) : List ω → StateM σ (List Completion)
  | [] => pure []
  | operation :: rest => do
      let completion ← backend.begin operation
      let others ← beginAll backend rest
      return completion :: others

def run (backend : AnimationBackend σ τ ω) (group : AnimationGroup ω) : StateM σ Unit := do
  let _ ← beginAll backend group.operations

def runAwaited (backend : AnimationBackend σ τ ω) (group : AnimationGroup ω) : StateM σ GroupCompletion := do
  return .join (← beginAll backend group.operations)

end AnimationGroup

structure Timeline where
  created : Array (TimedTrack Float) := #[]
  begun : Nat := 0
deriving Inhabited

namespace Timeline

private def recordCreation (timed : TimedTrack Float) : Action Timeline (TimedTrack Float) := do
  modify fun timeline => { timeline with created := timeline.created.push timed }
  return timed

/-- Counts a begin; the answer is the number of begins before. -/
private def recordBegin : StateM Timeline Nat := do
  let timeline ← get
  set { timeline with begun := timeline.begun + 1 }
  return timeline.begun

/-- Records every animation; operations are finished as soon as they are begun. -/
def record : AnimationBackend Timeline τ (TimedTrack Float) where
  create _ timed := recordCreation timed
  begin _ := do
    let _ ← recordBegin
    return .atOnce

/-- Records every animation; an operation is finished when the gate of its begin is released.  Gates are
numbered in the order of begins. -/
def recordGated : AnimationBackend Timeline τ (TimedTrack Float) where
  create _ timed := recordCreation timed
  begin _ := do return .gate (← recordBegin)

end Timeline

end VisualEffects
