import VisualEffects.Animation.Group
import VisualEffects.Animation.Request

namespace VisualEffects

/-! Builders: they record requests for one target as tracks, and bind them to a duration only when the group is
materialized or started, any number of times.
-/

/-- The timing of new builders. -/
structure AnimationOptions where
  durationMs : UInt64 := 250
  delayMs : UInt64 := 0
deriving DecidableEq

namespace AnimationOptions

open Json (Value Fault Layout Draft Node)

inductive Field where
  | durationMs
  | delayMs
deriving DecidableEq

instance : Json.Fields Field where
  Content _ := UInt64
  name
    | .durationMs => "default_duration_ms"
    | .delayMs => "default_delay_ms"

def layout : Layout Field := ⟨"struct AnimationOptions", [.durationMs, .delayMs], fun _ => false⟩

def readMilliseconds (node : Node) : Except Fault UInt64 := (node.readNatural "u64").map Nat.toUInt64

def readNode : Nat → Node → Except Fault AnimationOptions :=
  layout.readNode (fun _ _ => readMilliseconds) fun draft =>
    let usual : AnimationOptions := {}
    .ok ⟨(draft .durationMs).getD usual.durationMs, (draft .delayMs).getD usual.delayMs⟩

def ofText (text : String) : Except Fault AnimationOptions := (Json.Document.ofText text).read readNode

def toValue (options : AnimationOptions) : Value :=
  .object [("default_duration_ms", .natural options.durationMs.toNat),
    ("default_delay_ms", .natural options.delayMs.toNat)]

end AnimationOptions

structure AnimationBuilder (τ : Type) where
  target : τ
  tracks : List Track := []
  duration : Duration
  delay : Duration

namespace Motion

def track (motion : Motion Float) (property : Property) : Track :=
  ⟨property, .ofOption motion.start, motion.goal, motion.easing⟩

/-- The track of a change of size, which starts from the measured size unless it says otherwise. -/
def sizeTrack (motion : Motion Float) (axis : Axis) : Track :=
  ⟨.size axis, motion.start.elim (.measured axis) .explicit, motion.goal, motion.easing⟩

end Motion

namespace AnimationBuilder

variable {τ : Type}

def ofTarget (target : τ) (options : AnimationOptions := {}) : AnimationBuilder τ where
  target := target
  duration := .ofMilliseconds options.durationMs
  delay := .ofMilliseconds options.delayMs

def withDuration (builder : AnimationBuilder τ) (duration : Duration) : AnimationBuilder τ :=
  { builder with duration }

def withDelay (builder : AnimationBuilder τ) (delay : Duration) : AnimationBuilder τ :=
  { builder with delay }

def withTarget (builder : AnimationBuilder τ) (edit : τ → τ) : AnimationBuilder τ :=
  { builder with target := edit builder.target }

/-! Requests change the builder as they go and may be rejected on the way, which takes nothing back. -/

def push (track : Track) : Action (AnimationBuilder τ) Unit :=
  modify fun builder => { builder with tracks := builder.tracks ++ [track] }

def opacity (motion : Motion Float) : Action (AnimationBuilder τ) Unit := push (motion.track .opacity)

def translateAxis (axis : Axis) (motion : Motion Float) : Action (AnimationBuilder τ) Unit :=
  push (motion.track (.translate axis))

def translate (motion : Motion Vector) : Action (AnimationBuilder τ) Unit := do
  translateAxis .x (motion.along .x)
  translateAxis .y (motion.along .y)

def scale (motion : Motion Float) : Action (AnimationBuilder τ) Unit := do
  push (motion.track .scaleX)
  push (motion.track .scaleY)

def rotation (motion : Motion Float) : Action (AnimationBuilder τ) Unit := push (motion.track .rotation)

def offsetAxis (axis : Axis) (_ : Motion Float) : Action (AnimationBuilder τ) Unit :=
  throw (.cannotAnimate (Json.Choice.title axis ++ " offset"))

def offset (_ : Motion Vector) : Action (AnimationBuilder τ) Unit := throw (.cannotAnimate "offset")

def clip (side : Side) (_ : Motion Float) : Action (AnimationBuilder τ) Unit :=
  throw (.cannotAnimate (Json.Choice.title side ++ " clip"))

section Layout

variable [AnimationTarget τ]

/-- Rejects a request for sizes while the target takes no part in layout. -/
def requireLayoutSize : Action (AnimationBuilder τ) Unit := do
  if (AnimationTarget.layoutSize? (← get).target).isNone then throw .noLayoutSize

def sizeAxis (axis : Axis) (motion : Motion Float) : Action (AnimationBuilder τ) Unit := do
  requireLayoutSize
  push (motion.sizeTrack axis)

def size (motion : Motion Vector) : Action (AnimationBuilder τ) Unit := do
  requireLayoutSize
  push ((motion.along .x).sizeTrack .x)
  push ((motion.along .y).sizeTrack .y)

end Layout

variable {σ ω : Type} [AnimationTarget τ] (backend : AnimationBackend σ τ ω) (builder : AnimationBuilder τ)

def materialize (duration : Duration) : Action σ (AnimationGroup ω) :=
  AnimationGroup.materialize backend builder.target builder.tracks duration builder.delay

def start : Action σ Unit := do
  let group ← builder.materialize backend builder.duration
  group.run backend

def startAwaited : Action σ GroupCompletion := do
  let group ← builder.materialize backend builder.duration
  group.runAwaited backend

end AnimationBuilder

/-- Makes a request of a builder. -/
def Request.apply [AnimationTarget τ] : Request → Action (AnimationBuilder τ) Unit
  | opacity motion => AnimationBuilder.opacity motion
  | translateAxis axis motion => AnimationBuilder.translateAxis axis motion
  | translate motion => AnimationBuilder.translate motion
  | scale motion => AnimationBuilder.scale motion
  | rotation motion => AnimationBuilder.rotation motion
  | sizeAxis axis motion => AnimationBuilder.sizeAxis axis motion
  | size motion => AnimationBuilder.size motion
  | offsetAxis axis motion => AnimationBuilder.offsetAxis axis motion
  | offset motion => AnimationBuilder.offset motion
  | clip side motion => AnimationBuilder.clip side motion

/-- The builder after a request that it accepts, else the rejection. -/
def AnimationBuilder.request [AnimationTarget τ] (builder : AnimationBuilder τ) (request : Request) :
    Except Error (AnimationBuilder τ) :=
  let (answer, after) := request.apply.run.run builder
  answer.map fun _ => after

/-! A builder can be shown on one line; doubles stand in place for decimal exponents from -4 to 15. -/

private def shownStyle : Decimal.Style := ⟨-4, 15, false, .up⟩

private def shownReal (x : Float) : String := String.ofList (shownStyle.render x)

def Start.describe : Start → String
  | current => "Current"
  | explicit value => "Explicit(" ++ shownReal value ++ ")"
  | measured axis => "MeasuredFallback(" ++ Json.Choice.title axis ++ ")"

def Track.describe (track : Track) : String :=
  "AnimationFactory \x7b property: " ++ Json.Choice.title track.property ++ ", from: " ++ track.start.describe ++
    ", to: " ++ shownReal track.goal ++ ", easing: " ++ Json.Choice.title track.easing ++ " \x7d"

def AnimationBuilder.describe (builder : AnimationBuilder τ) : String :=
  "AnimationBuilder \x7b factories: [" ++ ", ".intercalate (builder.tracks.map Track.describe) ++
    "], duration: " ++ builder.duration.describe ++ ", delay: " ++ builder.delay.describe ++ ", .. \x7d"

end VisualEffects
