import VisualEffects.Effect.Role
import VisualEffects.Json.Record

namespace VisualEffects

/-! Checking a pipeline, and counting what is in it.

A tree of effects is accepted when every list in it starts with a source, goes on with anything but sources,
and stands under no more blends than allowed.  The first violation in reading order is reported.
-/

/-- How deep branches may be nested; the pipeline itself is at depth 0. -/
structure CompileOptions where
  maxBranchDepth : Nat := 32
deriving DecidableEq, Repr

namespace CompileOptions

open Json (Value Fault Layout Draft)

inductive Field where
  | maxBranchDepth
deriving DecidableEq

instance : Json.Fields Field where
  Content _ := Nat
  name _ := "max_branch_depth"

def layout : Layout Field := ⟨"struct CompileOptions", [.maxBranchDepth], fun _ => false⟩

def readNode : Nat → Json.Node → Except Fault CompileOptions :=
  layout.readNode (fun _ _ => Json.Node.readNatural "usize") fun draft =>
    match draft .maxBranchDepth with
    | some depth => .ok ⟨depth⟩
    | none => .ok {}

def ofText (text : String) : Except Fault CompileOptions := (Json.Document.ofText text).read readNode

def toValue (options : CompileOptions) : Value :=
  .object [("max_branch_depth", .natural options.maxBranchDepth)]

end CompileOptions

structure Shape where
  /-- Sources, one per list. -/
  sources : Nat := 0
  /-- Everything else, blends included. -/
  transforms : Nat := 0
  blends : Nat := 0
  /-- The greatest number of blends around a list. -/
  maxDepth : Nat := 0
deriving DecidableEq, Repr, Inhabited

namespace Shape

def add (left right : Shape) : Shape where
  sources := left.sources + right.sources
  transforms := left.transforms + right.transforms
  blends := left.blends + right.blends
  maxDepth := max left.maxDepth right.maxDepth

instance : Add Shape := ⟨add⟩

def source (depth : Nat) : Shape := { sources := 1, maxDepth := depth }

def transform : Shape := { transforms := 1 }

def blend : Shape := { transforms := 1, blends := 1 }

def toValue (shape : Shape) : Json.Value :=
  .object [("sources", .natural shape.sources), ("transforms", .natural shape.transforms),
    ("blends", .natural shape.blends), ("max_depth", .natural shape.maxDepth)]

mutual
/-- Checks a list of effects that stands under `depth` blends. -/
def ofList (limit depth : Nat) : List Effect → Except Error Shape
  | [] => if limit < depth then .error (.nestedDeeper limit) else .error .emptyPipeline
  | first :: rest => do
      if limit < depth then throw (.nestedDeeper limit)
      first.checkSource
      let others ← ofRest limit depth 1 rest
      return source depth + others

/-- Checks what follows a source; `index` is the position in the list. -/
def ofRest (limit depth index : Nat) : List Effect → Except Error Shape
  | [] => .ok {}
  | effect :: rest => do
      let here ← ofTransform limit depth index effect
      let others ← ofRest limit depth (index + 1) rest
      return here + others

/-- Checks one effect that follows others; the branch of a blend stands one blend deeper. -/
def ofTransform (limit depth index : Nat) : Effect → Except Error Shape
  | .blend branch _ _ => do
      let inner ← ofList limit (depth + 1) branch
      return blend + inner
  | effect => if effect.isSource then .error (.invalidTransform index effect.kind.name) else .ok transform
end

end Shape

/-- Checks a pipeline without touching any backend. -/
def validate (options : CompileOptions) (effects : List Effect) : Except Error Shape :=
  Shape.ofList options.maxBranchDepth 0 effects

end VisualEffects
