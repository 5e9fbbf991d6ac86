import VisualEffects.Effect.Basic
import VisualEffects.Error

namespace VisualEffects

/-! The calls that build a graph of effects, and the backends that answer them.

A backend answers every call with a node of its own, or refuses it; either way its state may change.  The
nodes that a call refers to are its inputs: none for a source, the chain so far for a transform, and the chain
so far and the branch for a blend.
-/

/-- A call that starts a chain. -/
inductive Source where
  | backdrop
  | hostBackdrop
  | solidColor (color : Color)
  | image (uri : String) (dpi : DpiMode) (cache : CacheMode)
  | tiles (uri : String) (dpi : DpiMode) (cache : CacheMode)
  | backdropAcrylic (tint : Color) (tintMix blur : Float) (texture : Option String)
  | hostBackdropAcrylic (tint : Color) (tintMix : Float) (texture : Option String)
deriving DecidableEq, Inhabited

/-- A call that wraps one node. -/
inductive Transform where
  | opacity (value : Float)
  | luminanceToAlpha
  | tint (color : Color) (opacity : Float)
  | blur (amount : Float)
  | saturation (value : Float)
deriving DecidableEq, Inhabited

/-- What a call does, apart from the nodes it does it to. -/
inductive Operation where
  | source (source : Source)
  | transform (transform : Transform)
  | blend (mode : BlendMode) (placement : Placement)
deriving DecidableEq, Inhabited

inductive Call (ν : Type) where
  | source (source : Source)
  | transform (transform : Transform) (chain : ν)
  | blend (mode : BlendMode) (placement : Placement) (chain branch : ν)
deriving DecidableEq, Inhabited

def Source.name : Source → String
  | backdrop => "backdrop"
  | hostBackdrop => "host_backdrop"
  | solidColor _ => "solid_color"
  | image _ _ _ => "image"
  | tiles _ _ _ => "tiles"
  | backdropAcrylic _ _ _ _ => "backdrop_acrylic"
  | hostBackdropAcrylic _ _ _ => "host_backdrop_acrylic"

def Transform.name : Transform → String
  | opacity _ => "opacity"
  | luminanceToAlpha => "luminance_to_alpha"
  | tint _ _ => "tint"
  | blur _ => "blur"
  | saturation _ => "saturation"

def Operation.name : Operation → String
  | source start => start.name
  | transform step => step.name
  | blend _ _ => "blend"

namespace Call

def operation : Call ν → Operation
  | source start => .source start
  | transform step _ => .transform step
  | blend mode placement _ _ => .blend mode placement

def name (call : Call ν) : String := call.operation.name

/-- The nodes a call refers to; of a blend the chain first. -/
def inputs : Call ν → List ν
  | source _ => []
  | transform _ chain => [chain]
  | blend _ _ chain branch => [chain, branch]

def map (f : ν → μ) : Call ν → Call μ
  | source start => .source start
  | transform step chain => .transform step (f chain)
  | blend mode placement chain branch => .blend mode placement (f chain) (f branch)

end Call

/-- A step that may change a state and may fail; a failing step keeps the changes it made. -/
abbrev Action (σ α : Type) := ExceptT Error (StateM σ) α

theorem run_run_bind (first : ExceptT ε (StateM σ) α) (next : α → ExceptT ε (StateM σ) β) (state : σ) :
    (first >>= next).run.run state =
      match first.run.run state with
      | (.ok value, after) => (next value).run.run after
      | (.error error, after) => (.error error, after) := by
  rw [ExceptT.run_bind, StateT.run_bind]
  rcases first.run.run state with ⟨answer, after⟩
  cases answer <;> rfl

abbrev Backend (σ ν : Type) := Call ν → Action σ ν

/-- A backend that refuses some calls before `backend` sees them. -/
def Backend.refusing (refusal? : Call ν → σ → Option Error) (backend : Backend σ ν) : Backend σ ν :=
  fun call => do
    match refusal? call (← get) with
    | some error => throw error
    | none => backend call

end VisualEffects
