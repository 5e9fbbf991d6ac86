namespace VisualEffects

/-! Why a pipeline, an animation request or a backend call fails.

All but `other` are raised while something is checked or recorded, before a backend acts on the failing
step.  A backend's own failures are handed on as they are.
-/

inductive Error where
  | emptyPipeline
  | invalidSource (tag : String)
  /-- A source after the start of a pipeline; `index` is its position there. -/
  | invalidTransform (index : Nat) (tag : String)
  | invalidAcrylicSource (value : String)
  | unsupportedOperation (request : String)
  | invalidTargetType (reason : String)
  | validation (reason : String)
  | serialization (reason : String)
  /-- A failure from outside: what failed, and after it what caused that, and so on. -/
  | other (failure : String) (causes : List String)
deriving DecidableEq, Repr, Inhabited

namespace Error

def nestedDeeper (limit : Nat) : Error :=
  .validation ("blend branches nested deeper than " ++ toString limit)

def unknownNode (id : Nat) : Error := .validation ("unknown node id " ++ toString id)

def tooManyNodes : Error := .validation "node id overflow"

def noLayoutSize : Error := .invalidTargetType "can't animate the size of a target without layout size"

def cannotAnimate (what : String) : Error :=
  .unsupportedOperation ("can't animate the " ++ what ++ " with this backend")

def failure (text : String) : Error := .other text []

def message : Error → String
  | emptyPipeline => "empty pipeline: an effects pipeline can't be empty"
  | invalidSource tag => "invalid source: '" ++ tag ++ "' can't start a pipeline"
  | invalidTransform index tag =>
      "invalid transform: '" ++ tag ++ "' at position " ++ toString index ++ " is not a pipeline transform"
  | invalidAcrylicSource value => "invalid acrylic source: " ++ value
  | unsupportedOperation request => "unsupported operation: " ++ request
  | invalidTargetType reason => "invalid target type: " ++ reason
  | validation reason => "validation error: " ++ reason
  | serialization reason => "serialization error: " ++ reason
  | other failure _ => failure

/-- What lies behind an error, outermost first. -/
def causes : Error → List String
  | other _ causes => causes
  | _ => []

end Error

end VisualEffects
