import VisualEffects.Animation.Easing
import VisualEffects.Animation.Target

namespace VisualEffects

/-! Tracks: animations of one property, first without and then with their timing. -/

/-- A span of time in whole nanoseconds. -/
structure Duration where
  nanoseconds : Nat
deriving DecidableEq, Repr, Inhabited

namespace Duration

def ofMilliseconds (count : UInt64) : Duration := ⟨count.toNat * 1000000⟩

/-- Seconds as a number: the whole seconds and the rest are converted apart from each other. -/
def seconds {α : Type} [Arithmetic α] (duration : Duration) : α :=
  Arithmetic.ofNat (duration.nanoseconds / 1000000000) +
    Arithmetic.ofNat (duration.nanoseconds % 1000000000) / Arithmetic.ofNat 1000000000

def milliseconds (duration : Duration) : Float := Float.ofNat duration.nanoseconds / 1000000

/-- A number of units and of parts of a unit, `width` digits of them, without zeros at the end. -/
private def inUnits (units parts width : Nat) (unit : String) : String :=
  let written := Decimal.Style.naturalDigits parts
  let padded := List.replicate (width - written.length) '0' ++ written
  let fraction := (padded.reverse.dropWhile (· == '0')).reverse
  String.ofList (Decimal.Style.naturalDigits units ++ if fraction.isEmpty then [] else '.' :: fraction) ++ unit

def describe (duration : Duration) : String :=
  let n := duration.nanoseconds
  if 1000000000 ≤ n then inUnits (n / 1000000000) (n % 1000000000) 9 "s"
  else if 1000000 ≤ n then inUnits (n / 1000000) (n % 1000000) 6 "ms"
  else if 1000 ≤ n then inUnits (n / 1000) (n % 1000) 3 "µs"
  else inUnits n 0 0 "ns"

end Duration

inductive Property where
  | opacity
  | translateX
  | translateY
  | scaleX
  | scaleY
  | rotation
  | width
  | height
deriving DecidableEq, Repr, Inhabited

namespace Property

instance : Json.Choice Property where
  all := [.opacity, .translateX, .translateY, .scaleX, .scaleY, .rotation, .width, .height]
  label
    | .opacity => "Opacity"
    | .translateX => "TranslateX"
    | .translateY => "TranslateY"
    | .scaleX => "ScaleX"
    | .scaleY => "ScaleY"
    | .rotation => "Rotation"
    | .width => "Width"
    | .height => "Height"

def name (property : Property) : String := Json.Choice.label property

def translate : Axis → Property
  | .x => translateX
  | .y => translateY

def size : Axis → Property
  | .x => width
  | .y => height

/-- Whether a change forces a layout on every tick. -/
def isLayoutDependent : Property → Bool
  | width => true
  | height => true
  | _ => false

end Property

inductive Start where
  /-- At the value the property has when the animation begins. -/
  | current
  | explicit (value : Float)
  /-- At the measured size on an axis whose size is left to the layout, otherwise at the current value. -/
  | measured (axis : Axis)
deriving DecidableEq, Inhabited

namespace Start

def ofOption : Option Float → Start
  | none => current
  | some value => explicit value

/-- The start value for a target with this size in its layout; nothing for the current value. -/
def resolve (start : Start) (size : Option LayoutSize) : Option Float :=
  match start with
  | current => none
  | explicit value => some value
  | measured axis => size.bind (·.measuredFallback? axis)

def toValue : Start → Json.Value
  | current => .text "current"
  | explicit value => .object [("explicit", .real value)]
  | measured axis => .object [("measured_fallback", Json.Choice.toValue axis)]

end Start

structure TimedTrack (α : Type) where
  property : Property
  /-- Nothing for the current value. -/
  start : Option α
  goal : α
  easing : Easing
  duration : Duration
  delay : Duration
deriving DecidableEq, Inhabited

namespace TimedTrack

def isLayoutDependent (timed : TimedTrack α) : Bool := timed.property.isLayoutDependent

/-- The value of the property some time after the animation was begun: the start value until the delay is
over, and the goal from the end of the duration on. -/
def sample [Arithmetic α] (timed : TimedTrack α) (current : α) (elapsed : Duration) : α :=
  let start := timed.start.getD current
  if elapsed.nanoseconds < timed.delay.nanoseconds then start
  else
    let active : Duration := ⟨elapsed.nanoseconds - timed.delay.nanoseconds⟩
    let progress : α :=
      if timed.duration.nanoseconds = 0 then Arithmetic.ofNat 1 else active.seconds / timed.duration.seconds
    start + (timed.goal - start) * timed.easing.apply progress

private def sameStart : Option Float → Option Float → Bool
  | none, none => true
  | some left, some right => left == right
  | _, _ => false

/-- Equality with values compared as numbers. -/
def same (left right : TimedTrack Float) : Bool :=
  left.property == right.property && sameStart left.start right.start && left.goal == right.goal &&
    left.easing == right.easing && left.duration == right.duration && left.delay == right.delay

def toValue (timed : TimedTrack Float) : Json.Value :=
  .object [("property", Json.Choice.toValue timed.property), ("from", .optional .real timed.start),
    ("to", .real timed.goal), ("easing", Json.Choice.toValue timed.easing),
    ("duration_ms", .real timed.duration.milliseconds), ("delay_ms", .real timed.delay.milliseconds),
    ("layout_dependent", .bool timed.isLayoutDependent)]

end TimedTrack

structure Track where
  property : Property
  start : Start
  goal : Float
  easing : Easing
deriving DecidableEq, Inhabited

namespace Track

/-- Binds a track to its timing.  This never fails: a target that has left the layout since the track was
recorded starts from the current value. -/
def resolve (track : Track) (size : Option LayoutSize) (duration delay : Duration) : TimedTrack Float where
  property := track.property
  start := track.start.resolve size
  goal := track.goal
  easing := track.easing
  duration := duration
  delay := delay

def toValue (track : Track) : Json.Value :=
  .object [("property", Json.Choice.toValue track.property), ("from", track.start.toValue),
    ("to", .real track.goal), ("easing", Json.Choice.toValue track.easing)]

end Track

end VisualEffects
