import VisualEffects.Pipeline.Basic
import VisualEffects.Pipeline.Compile

namespace VisualEffects

/-! Brushes: pipelines that are compiled when their node is first asked for.

The node is kept until the effects are replaced or the node is handed back.
-/

structure Brush (ν : Type) where
  pipeline : Pipeline
  options : CompileOptions := {}
  compiled : Option ν := none

namespace Brush

def isConnected (brush : Brush ν) : Bool := brush.compiled.isSome

/-- Replaces the effects; a node compiled before is dropped. -/
def setEffects (brush : Brush ν) (pipeline : Pipeline) : Brush ν :=
  { brush with pipeline, compiled := none }

/-- The node of the pipeline, compiled if there is none yet.  After a failure the brush has no node, so the
next attempt compiles the whole pipeline again. -/
def connect (backend : Backend σ ν) (brush : Brush ν) : StateM σ (Except Error ν × Brush ν) :=
  match brush.compiled with
  | some node => return (.ok node, brush)
  | none => do
      match ← (compile brush.options backend brush.pipeline.effects).run with
      | .ok node => return (.ok node, { brush with compiled := some node })
      | .error error => return (.error error, brush)

/-- Hands back the node, if there is one. -/
def disconnect (brush : Brush ν) : Option ν × Brush ν := (brush.compiled, { brush with compiled := none })

end Brush

end VisualEffects
