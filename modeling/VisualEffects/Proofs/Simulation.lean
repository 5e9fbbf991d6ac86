import VisualEffects.Graph.Basic
import VisualEffects.Pipeline.Compile

namespace VisualEffects

/-! Backends that compiling cannot tell apart.

A compilation hands nodes from one call to the next and never looks into them.  So when the calls of two backends
agree wherever their nodes and their states correspond, the compilations of every pipeline agree as well, however
different the nodes and states of the two are.
-/

/-- Calls that do the same to nodes that correspond. -/
inductive Call.Corresponds (nodes : ν → μ → Prop) : Call ν → Call μ → Prop
  | source (start : Source) : Corresponds nodes (.source start) (.source start)
  | transform (step : Transform) (chain : nodes left right) :
      Corresponds nodes (.transform step left) (.transform step right)
  | blend (mode : BlendMode) (placement : Placement) (chain : nodes left right)
      (branch : nodes leftBranch rightBranch) :
      Corresponds nodes (.blend mode placement left leftBranch) (.blend mode placement right rightBranch)

namespace Action

/-- Outcomes that are both a success, with answers and states that correspond, or both the same failure, with states
that correspond. -/
inductive Matches (answers : α → β → Prop) (states : σ → ρ → Prop) : Except Error α × σ → Except Error β × ρ → Prop
  | succeeded (answer : answers left right) (state : states after later) :
      Matches answers states (.ok left, after) (.ok right, later)
  | failed (error : Error) (state : states after later) :
      Matches answers states (.error error, after) (.error error, later)

/-- Actions whose outcomes match wherever they start from states that correspond. -/
def Agree (answers : α → β → Prop) (states : σ → ρ → Prop) (first : Action σ α) (second : Action ρ β) : Prop :=
  ∀ before earlier, states before earlier → Matches answers states (first.run.run before) (second.run.run earlier)

variable {σ ρ α β γ δ : Type} {answers : α → β → Prop} {results : γ → δ → Prop} {states : σ → ρ → Prop}

theorem Agree.pure {left : α} {right : β} (answer : answers left right) :
    Agree answers states (Pure.pure left) (Pure.pure right) :=
  fun _ _ state => .succeeded answer state

theorem Agree.throw (error : Error) :
    Agree answers states (MonadExcept.throw error : Action σ α) (MonadExcept.throw error : Action ρ β) :=
  fun _ _ state => .failed error state

theorem Agree.bind {first : Action σ α} {second : Action ρ β} {next : α → Action σ γ} {following : β → Action ρ δ}
    (agree : Agree answers states first second)
    (later : ∀ left right, answers left right → Agree results states (next left) (following right)) :
    Agree results states (first >>= next) (second >>= following) := by
  intro before earlier state
  have outcomes := agree before earlier state
  rw [run_run_bind, run_run_bind]
  generalize first.run.run before = left at outcomes ⊢
  generalize second.run.run earlier = right at outcomes ⊢
  cases outcomes with
  | succeeded answer state => exact later _ _ answer _ _ state
  | failed error state => exact .failed error state

theorem Agree.ofExcept (outcome : Except Error α) : Agree Eq states (ofExcept outcome) (ofExcept outcome) := by
  cases outcome with
  | ok value => exact .pure rfl
  | error error => exact .throw error

end Action

/-- Backends whose calls agree wherever their nodes and states correspond. -/
def Backend.Agree (nodes : ν → μ → Prop) (states : σ → ρ → Prop) (first : Backend σ ν) (second : Backend ρ μ) : Prop :=
  ∀ left right, Call.Corresponds nodes left right → Action.Agree nodes states (first left) (second right)

section
variable {σ ρ ν μ : Type} {nodes : ν → μ → Prop} {states : σ → ρ → Prop} {first : Backend σ ν} {second : Backend ρ μ}

mutual
theorem build_agree (agree : first.Agree nodes states second) (effects : List Effect) :
    Action.Agree nodes states (build first effects) (build second effects) := by
  cases effects with
  | nil => exact .throw .emptyPipeline
  | cons effect rest =>
      refine .bind (.ofExcept effect.source) ?_
      rintro start _ rfl
      refine .bind (agree _ _ (.source start)) ?_
      intro left right chain
      exact extend_agree agree 1 chain rest

theorem extend_agree (agree : first.Agree nodes states second) (index : Nat) {left : ν} {right : μ}
    (chain : nodes left right) (effects : List Effect) :
    Action.Agree nodes states (extend first index left effects) (extend second index right effects) := by
  cases effects with
  | nil => exact .pure chain
  | cons effect rest =>
      refine .bind (wrap_agree agree index chain effect) ?_
      intro left right wrapped
      exact extend_agree agree (index + 1) wrapped rest

theorem wrap_agree (agree : first.Agree nodes states second) (index : Nat) {left : ν} {right : μ}
    (chain : nodes left right) (effect : Effect) :
    Action.Agree nodes states (wrap first index left effect) (wrap second index right effect) := by
  cases effect with
  | blend branch mode placement =>
      -- Building the branch changes the states.  The nodes of the chain correspond whatever the states are.
      refine .bind (build_agree agree branch) ?_
      intro inner other branch
      exact agree _ _ (.blend mode placement chain branch)
  | opacity | luminance | tint | blur | saturation => exact agree _ _ (.transform _ chain)
  | backdrop | solidColor | image | tile | acrylic => exact .throw _
end

end

/-- The backend that only counts its calls, and numbers its nodes as a recorded graph does. -/
def Backend.counting : Backend Nat NodeId := fun _ => do
  let count ← get
  if count < Graph.idLimit then
    set (count + 1)
    return count
  else throw .tooManyNodes

theorem run_counting (call : Call NodeId) (count : Nat) :
    (Backend.counting call).run.run count =
      if count < Graph.idLimit then (.ok count, count + 1) else (.error .tooManyNodes, count) := by
  have got : (get : Action Nat Nat).run.run count = (.ok count, count) := rfl
  simp only [Backend.counting, run_run_bind, got]
  split <;> rfl

/-- What a recorded graph answers depends on nothing but how many nodes it has. -/
theorem record_agree_counting :
    Backend.Agree Eq (fun graph count => graph.size = count) Graph.record Backend.counting := by
  rintro left right _ graph _ rfl
  rw [Graph.run_record, run_counting]
  split
  · exact .succeeded rfl (Array.size_push left)
  · exact .failed .tooManyNodes rfl

/-- Compiling a pipeline on backends whose calls agree succeeds on both, with nodes and states that correspond, or
fails on both with the same error and with states that correspond. -/
theorem compile_agree {σ ρ ν μ : Type} {nodes : ν → μ → Prop} {states : σ → ρ → Prop} {first : Backend σ ν}
    {second : Backend ρ μ} (agree : first.Agree nodes states second) (options : CompileOptions)
    (effects : List Effect) :
    Action.Agree nodes states (compile options first effects) (compile options second effects) := by
  refine .bind (.ofExcept (validate options effects)) ?_
  intro _ _ _
  exact build_agree agree effects

def Graph.crowded : Graph := ⟨Array.replicate (Graph.idLimit - 2) (.source .backdrop)⟩

/-- Counting is enough to know that the third call of a pipeline, which stands in its branch, fails on a graph with
room for two nodes, and that the two nodes before it stay. -/
theorem compile_agree_of_crowded :
    Backend.Agree Eq (fun graph count => graph.size = count) Graph.record Backend.counting ∧
      Graph.crowded.size = Graph.idLimit - 2 ∧
      ∃ after, (compile {} Graph.record [.backdrop .window,
          .blend [.backdrop .host, .luminance] .screen .background]).run.run Graph.crowded =
        (.error .tooManyNodes, after) ∧ after.size = Graph.idLimit := by
  have size : Graph.crowded.size = Graph.idLimit - 2 := Array.size_replicate
  have outcomes := compile_agree record_agree_counting {} [.backdrop .window,
    .blend [.backdrop .host, .luminance] .screen .background] Graph.crowded (Graph.idLimit - 2) size
  have counted : (compile {} Backend.counting [.backdrop .window,
      .blend [.backdrop .host, .luminance] .screen .background]).run.run (Graph.idLimit - 2) =
        (.error .tooManyNodes, Graph.idLimit) := rfl
  rw [counted] at outcomes
  refine ⟨record_agree_counting, size, ?_⟩
  generalize (compile {} Graph.record _).run.run Graph.crowded = recorded at outcomes ⊢
  cases outcomes with
  | failed error state => exact ⟨_, rfl, state⟩

end VisualEffects
