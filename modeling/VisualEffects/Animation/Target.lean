import VisualEffects.Geometry

namespace VisualEffects

/-! The things that are animated, as far as animations need to know them: their size in a layout, if any. -/

/-- The size of a target that takes part in layout.  An authored component that is no number is left to the
layout; the measured size is the one the target has. -/
structure LayoutSize where
  authored : Vector
  measured : Vector
deriving DecidableEq, Inhabited

namespace LayoutSize

private def nan : Float := 0 / 0

def unresolved (measured : Vector) : LayoutSize := ⟨⟨nan, nan⟩, measured⟩

/-- The measured size on an axis whose size is left to the layout. -/
def measuredFallback? (size : LayoutSize) (axis : Axis) : Option Float :=
  if (size.authored.along axis).isNaN then some (size.measured.along axis) else none

end LayoutSize

class AnimationTarget (τ : Type) where
  /-- Nothing for a target outside layout, whose size cannot be animated. -/
  layoutSize? : τ → Option LayoutSize

/-- A size as it is written: a component that is absent is left to the layout. -/
structure TargetSize where
  width : Option Float := none
  height : Option Float := none
  actualWidth : Float
  actualHeight : Float
deriving DecidableEq, Inhabited

structure StaticTarget where
  name : String := ""
  size : Option TargetSize := none
deriving DecidableEq, Inhabited

def TargetSize.toLayoutSize (size : TargetSize) : LayoutSize :=
  ⟨⟨size.width.getD LayoutSize.nan, size.height.getD LayoutSize.nan⟩, ⟨size.actualWidth, size.actualHeight⟩⟩

instance : AnimationTarget StaticTarget where
  layoutSize? target := target.size.map TargetSize.toLayoutSize

open Json (Value Fault Layout Draft Node)

namespace TargetSize

inductive Field where
  | width
  | height
  | actualWidth
  | actualHeight
deriving DecidableEq

instance : Json.Fields Field where
  Content
    | .width => Option Float
    | .height => Option Float
    | .actualWidth => Float
    | .actualHeight => Float
  name
    | .width => "width"
    | .height => "height"
    | .actualWidth => "actual_width"
    | .actualHeight => "actual_height"

def layout : Layout Field where
  title := "struct TargetSize"
  fields := [.width, .height, .actualWidth, .actualHeight]
  required
    | .width => false
    | .height => false
    | .actualWidth => true
    | .actualHeight => true

def readField (_ : Nat) : (field : Field) → Node → Except Fault (Json.Fields.Content field)
  | .width => Node.readOptional Node.readReal
  | .height => Node.readOptional Node.readReal
  | .actualWidth => Node.readReal
  | .actualHeight => Node.readReal

def ofDraft (draft : Draft Field) : Except Fault TargetSize := do
  return ⟨(draft .width).getD none, (draft .height).getD none, ← draft.need .actualWidth,
    ← draft.need .actualHeight⟩

def readNode : Nat → Node → Except Fault TargetSize := layout.readNode readField ofDraft

def toValue (size : TargetSize) : Value :=
  .object [("width", .optional .real size.width), ("height", .optional .real size.height),
    ("actual_width", .real size.actualWidth), ("actual_height", .real size.actualHeight)]

end TargetSize

namespace StaticTarget

inductive Field where
  | name
  | size
deriving DecidableEq

instance : Json.Fields Field where
  Content
    | .name => String
    | .size => Option TargetSize
  name
    | .name => "name"
    | .size => "size"

def layout : Layout Field := ⟨"struct StaticTarget", [.name, .size], fun _ => false⟩

def readField (room : Nat) : (field : Field) → Node → Except Fault (Json.Fields.Content field)
  | .name => Node.readText
  | .size => Node.readOptional (TargetSize.readNode room)

def ofDraft (draft : Draft Field) : Except Fault StaticTarget :=
  .ok ⟨(draft .name).getD "", (draft .size).getD none⟩

def readNode : Nat → Node → Except Fault StaticTarget := layout.readNode readField ofDraft

def ofText (text : String) : Except Fault StaticTarget := (Json.Document.ofText text).read readNode

def toValue (target : StaticTarget) : Value :=
  .object (("name", .text target.name) :: Value.optionalMember "size" TargetSize.toValue target.size)

end StaticTarget

end VisualEffects
