import VisualEffects.Pipeline.Shape

namespace VisualEffects

/-! Building a pipeline on a backend.

The whole tree is checked first, so no call is made for a pipeline that is not accepted.  Then the list is
built from left to right, each call taking the node of the one before; a branch is built where its blend
stands, just before the call that joins it.
-/

/-- An outcome that was known beforehand. -/
def Action.ofExcept : Except Error α → Action σ α
  | .ok value => pure value
  | .error error => throw error

mutual
/-- Builds a list of effects without checking it first. -/
def build (backend : Backend σ ν) : List Effect → Action σ ν
  | [] => throw .emptyPipeline
  | first :: rest => do
      let source ← Action.ofExcept first.source
      let node ← backend (.source source)
      extend backend 1 node rest

/-- Wraps a node in the effects that follow; `index` is their position in the list. -/
def extend (backend : Backend σ ν) (index : Nat) (node : ν) : List Effect → Action σ ν
  | [] => pure node
  | effect :: rest => do
      let node ← wrap backend index node effect
      extend backend (index + 1) node rest

/-- Wraps a node in one effect; the branch of a blend is built first. -/
def wrap (backend : Backend σ ν) (index : Nat) (node : ν) : Effect → Action σ ν
  | .blend branch mode placement => do
      let branchNode ← build backend branch
      backend (.blend mode placement node branchNode)
  | effect =>
      match effect.transform? with
      | some transform => backend (.transform transform node)
      | none => throw (.invalidTransform index effect.kind.name)
end

/-- Builds a pipeline on a backend, and answers the node of its last effect. -/
def compile (options : CompileOptions) (backend : Backend σ ν) (effects : List Effect) : Action σ ν := do
  let _ ← Action.ofExcept (validate options effects)
  build backend effects

end VisualEffects
