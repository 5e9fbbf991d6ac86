import VisualEffects.Animation.Track
import VisualEffects.Error
import VisualEffects.Json.Tagged

namespace VisualEffects

/-! Requests: what a builder can be asked to animate, and their form in JSON.

In JSON a request is an object with the name of its kind as member `property`, or a list that starts with it.
-/

structure Motion (α : Type) where
  /-- Nothing for the current value. -/
  start : Option α := none
  goal : α
  easing : Easing := .linear
deriving DecidableEq, Inhabited

namespace Motion

def along (motion : Motion Vector) (axis : Axis) : Motion Float :=
  ⟨motion.start.map (·.along axis), motion.goal.along axis, motion.easing⟩

end Motion

inductive Request where
  | opacity (motion : Motion Float)
  | translateAxis (axis : Axis) (motion : Motion Float)
  | translate (motion : Motion Vector)
  | scale (motion : Motion Float)
  | rotation (motion : Motion Float)
  | sizeAxis (axis : Axis) (motion : Motion Float)
  | size (motion : Motion Vector)
  | offsetAxis (axis : Axis) (motion : Motion Float)
  | offset (motion : Motion Vector)
  | clip (side : Side) (motion : Motion Float)
deriving DecidableEq, Inhabited

namespace Request

open Json (Value Fault Layout Draft)

inductive Kind where
  | opacity
  | translateAxis
  | translate
  | scale
  | rotation
  | sizeAxis
  | size
  | offsetAxis
  | offset
  | clip
deriving DecidableEq, Repr, Inhabited

instance : Json.Choice Kind where
  all := [.opacity, .translateAxis, .translate, .scale, .rotation, .sizeAxis, .size, .offsetAxis, .offset,
    .clip]
  label
    | .opacity => "opacity"
    | .translateAxis => "translation_axis"
    | .translate => "translation"
    | .scale => "scale"
    | .rotation => "rotation"
    | .sizeAxis => "size_axis"
    | .size => "size"
    | .offsetAxis => "offset_axis"
    | .offset => "offset"
    | .clip => "clip"

inductive Field (α : Type) where
  | axis
  | side
  | start
  | goal
  | easing

instance : DecidableEq (Field α) := fun left right => by
  cases left <;> cases right <;> first | exact isTrue rfl | exact isFalse nofun

instance : Json.Fields (Field α) where
  Content
    | .axis => Axis
    | .side => Side
    | .start => Option α
    | .goal => α
    | .easing => Easing
  name
    | .axis => "axis"
    | .side => "side"
    | .start => "from"
    | .goal => "to"
    | .easing => "easing"

def Field.isRequired : Field α → Bool
  | .start => false
  | .easing => false
  | _ => true

/-- The layout of a kind of requests, with the fields that stand before the motion. -/
def layout (kind : Kind) (before : List (Field α)) : Layout (Field α) :=
  ⟨"struct variant AnimationStep::" ++ Json.Choice.title kind, before ++ [.start, .goal, .easing],
    Field.isRequired⟩

def readField (read : Value → Except Fault α) : (field : Field α) → Value → Except Fault (Json.Fields.Content field)
  | .axis => (Json.Choice.readValue : Value → Except Fault Axis)
  | .side => (Json.Choice.readValue : Value → Except Fault Side)
  | .start => Value.readOptional read
  | .goal => read
  | .easing => (Json.Choice.readValue : Value → Except Fault Easing)

def motionOf (draft : Draft (Field α)) : Except Fault (Motion α) := do
  return ⟨(draft .start).getD none, ← draft.need .goal, (draft .easing).getD Easing.linear⟩

def readPlain (kind : Kind) (read : Value → Except Fault α) (make : Motion α → Request) :
    Value → Except Fault Request :=
  (layout kind []).readValue (readField read) fun draft => do return make (← motionOf draft)

def readWithAxis (kind : Kind) (make : Axis → Motion Float → Request) : Value → Except Fault Request :=
  (layout kind [.axis]).readValue (readField Value.readReal) fun draft => do
    return make (← draft.need .axis) (← motionOf draft)

def readWithSide (kind : Kind) (make : Side → Motion Float → Request) : Value → Except Fault Request :=
  (layout kind [.side]).readValue (readField Value.readReal) fun draft => do
    return make (← draft.need .side) (← motionOf draft)

def ofFields (kind : Kind) : Value → Except Fault Request :=
  match kind with
  | .opacity => readPlain kind Value.readReal opacity
  | .translateAxis => readWithAxis kind translateAxis
  | .translate => readPlain kind Vector.readValue translate
  | .scale => readPlain kind Value.readReal scale
  | .rotation => readPlain kind Value.readReal rotation
  | .sizeAxis => readWithAxis kind sizeAxis
  | .size => readPlain kind Vector.readValue size
  | .offsetAxis => readWithAxis kind offsetAxis
  | .offset => readPlain kind Vector.readValue offset
  | .clip => readWithSide kind clip

def kindKey : String := "property"

def readNode (room : Nat) (node : Json.Node) : Except Fault Request := do
  let (kind, fields) ← Json.readTagged "internally tagged enum AnimationStep" kindKey
    (Json.Choice.readName (α := Kind)) room node
  ofFields kind fields

def ofText (text : String) : Except Fault Request := (Json.Document.ofText text).read readNode

private def motionMembers (write : α → Value) (motion : Motion α) : List (String × Value) :=
  [("from", .optional write motion.start), ("to", write motion.goal),
    ("easing", Json.Choice.toValue motion.easing)]

private def kindMember (kind : Kind) : String × Value := (kindKey, Json.Choice.toValue kind)

def toValue : Request → Value
  | opacity motion => .object (kindMember .opacity :: motionMembers .real motion)
  | translateAxis axis motion =>
      .object (kindMember .translateAxis :: ("axis", Json.Choice.toValue axis) :: motionMembers .real motion)
  | translate motion => .object (kindMember .translate :: motionMembers Vector.toValue motion)
  | scale motion => .object (kindMember .scale :: motionMembers .real motion)
  | rotation motion => .object (kindMember .rotation :: motionMembers .real motion)
  | sizeAxis axis motion =>
      .object (kindMember .sizeAxis :: ("axis", Json.Choice.toValue axis) :: motionMembers .real motion)
  | size motion => .object (kindMember .size :: motionMembers Vector.toValue motion)
  | offsetAxis axis motion =>
      .object (kindMember .offsetAxis :: ("axis", Json.Choice.toValue axis) :: motionMembers .real motion)
  | offset motion => .object (kindMember .offset :: motionMembers Vector.toValue motion)
  | clip side motion =>
      .object (kindMember .clip :: ("side", Json.Choice.toValue side) :: motionMembers .real motion)

end Request

end VisualEffects
