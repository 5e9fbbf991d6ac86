import VisualEffects.Graph.Basic

namespace VisualEffects

/-! Recorded graphs in JSON.

A node is an object with the name of its call, the parameters of the call, and its inputs.
-/

open Json (Value)

private def imageParameters (uri : String) (dpi : DpiMode) (cache : CacheMode) : List (String × Value) :=
  [("uri", .text uri), ("dpi_mode", Json.Choice.toValue dpi), ("cache_mode", Json.Choice.toValue cache)]

def Source.parameters : Source → List (String × Value)
  | backdrop => []
  | hostBackdrop => []
  | solidColor color => [("color", color.toValue)]
  | image uri dpi cache => imageParameters uri dpi cache
  | tiles uri dpi cache => imageParameters uri dpi cache
  | backdropAcrylic tint mix amount texture =>
      [("tint", tint.toValue), ("tint_mix", .real mix), ("blur_amount", .real amount),
        ("texture_uri", .optional .text texture)]
  | hostBackdropAcrylic tint mix texture =>
      [("tint", tint.toValue), ("tint_mix", .real mix), ("texture_uri", .optional .text texture)]

def Transform.parameters : Transform → List (String × Value)
  | opacity value => [("value", .real value)]
  | luminanceToAlpha => []
  | tint color amount => [("color", color.toValue), ("opacity", .real amount)]
  | blur amount => [("value", .real amount)]
  | saturation value => [("value", .real value)]

def Operation.parameters : Operation → List (String × Value)
  | source start => start.parameters
  | transform step => step.parameters
  | blend mode placement =>
      [("mode", Json.Choice.toValue mode), ("placement", Json.Choice.toValue placement)]

def Call.toValue (call : Call NodeId) : Value :=
  .object (("op", .text call.name) :: call.operation.parameters ++
    [("inputs", .list (call.inputs.map .natural))])

def Graph.toValue (graph : Graph) : Value :=
  .object [("nodes", .list (graph.nodes.toList.map Call.toValue))]

def CompiledGraph.toValue (compiled : CompiledGraph) : Value :=
  .object [("root", .natural compiled.root), ("graph", compiled.graph.toValue)]

end VisualEffects
