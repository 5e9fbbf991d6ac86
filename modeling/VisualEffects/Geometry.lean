import VisualEffects.Json.Choice
import VisualEffects.Json.Record

namespace VisualEffects

/-! Axes, sides and vectors of the plane. -/

inductive Axis where
  | x
  | y
deriving DecidableEq, Repr, Inhabited

inductive Side where
  | left
  | top
  | right
  | bottom
deriving DecidableEq, Repr, Inhabited

instance : Json.Choice Axis where
  all := [.x, .y]
  label
    | .x => "x"
    | .y => "y"

instance : Json.Choice Side where
  all := [.left, .top, .right, .bottom]
  label
    | .left => "left"
    | .top => "top"
    | .right => "right"
    | .bottom => "bottom"

structure Vector where
  x : Float
  y : Float
deriving DecidableEq, Inhabited

namespace Vector

def along (v : Vector) : Axis → Float
  | .x => v.x
  | .y => v.y

/-- Equality of components as numbers, so a component that is no number differs from itself. -/
def same (v w : Vector) : Bool := v.x == w.x && v.y == w.y

instance : Json.Fields Axis where
  Content _ := Float
  name := Json.Choice.label

def layout : Json.Layout Axis := ⟨"struct Vec2", [.x, .y], fun _ => true⟩

def toValue (v : Vector) : Json.Value := .object [("x", .real v.x), ("y", .real v.y)]

def readValue : Json.Value → Except Json.Fault Vector :=
  layout.readValue (fun _ => Json.Value.readReal) fun draft => do
    return ⟨← draft.need .x, ← draft.need .y⟩

end Vector

end VisualEffects
