import VisualEffects.Effect.Json
import VisualEffects.Pipeline.Shape

namespace VisualEffects

/-! Pipelines: ordered lists of effects, put together without being checked. -/

structure Pipeline where
  effects : List Effect := []
deriving Inhabited

namespace Pipeline

def ofSource (source : Effect) : Pipeline := ⟨[source]⟩

def andThen (pipeline : Pipeline) (effect : Effect) : Pipeline := ⟨pipeline.effects ++ [effect]⟩

/-- Appends a blend with another pipeline as its branch. -/
def blend (pipeline branch : Pipeline) (mode : BlendMode) (placement : Placement) : Pipeline :=
  pipeline.andThen (.blend branch.effects mode placement)

def length (pipeline : Pipeline) : Nat := pipeline.effects.length

def isEmpty (pipeline : Pipeline) : Bool := pipeline.effects.isEmpty

def same (left right : Pipeline) : Bool := Effect.sameList left.effects right.effects

def validate (pipeline : Pipeline) (options : CompileOptions) : Except Error Shape :=
  VisualEffects.validate options pipeline.effects

def toValue (pipeline : Pipeline) : Json.Value := .list (Effect.toValues pipeline.effects)

def readNode (room : Nat) (node : Json.Node) : Except Json.Fault Pipeline :=
  (node.readList Effect.readNode room).map fun effects => ⟨effects⟩

def ofText (text : String) : Except Error Pipeline :=
  ((Json.Document.ofText text).read readNode).mapError fun fault =>
    .serialization ("effect pipeline: " ++ fault.message)

end Pipeline

end VisualEffects
