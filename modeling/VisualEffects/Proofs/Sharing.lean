import Mathlib.Logic.Function.Basic
import VisualEffects.Pipeline.Brush
import VisualEffects.Proofs.Execution
import VisualEffects.Proofs.ReadBack

namespace VisualEffects

/-! Brushes that share one graph.

Any number of brushes, and compilations beside them, record into one graph in any order.  A guard may stand in
front of the graph and refuse calls, so a connect or a compilation can stop part-way and leave nodes that belong
to no brush.  A recorded node never changes, so the node that a brush holds is one from which its pipeline can
be read back, whatever the others do.
-/

/-- A backend behind a guard with a state of its own.  The guard sees every call, and what the backend holds by
then, and lets the call pass or refuses it. -/
def Backend.guarded (guard : Call ν → τ → σ → Option Error × τ) (backend : Backend σ ν) : Backend (τ × σ) ν :=
  fun call => ExceptT.mk fun (watch, state) =>
    match guard call watch state with
    | (some error, watch) => (.error error, watch, state)
    | (none, watch) =>
        let (answer, after) := (backend call).run.run state
        (answer, watch, after)

theorem Backend.run_guarded (guard : Call ν → τ → σ → Option Error × τ) (backend : Backend σ ν) (call : Call ν)
    (watch : τ) (state : σ) :
    (backend.guarded guard call).run.run (watch, state) =
      match guard call watch state with
      | (some error, watch) => (.error error, watch, state)
      | (none, watch) => (((backend call).run.run state).1, watch, ((backend call).run.run state).2) := rfl

theorem Backend.Keeps.guarded {backend : Backend σ NodeId} {graph : σ → Graph} (keeps : backend.Keeps graph)
    (guard : Call NodeId → τ → σ → Option Error × τ) :
    (backend.guarded guard).Keeps fun watched => graph watched.2 where
  grows := by
    rintro call ⟨watch, state⟩
    rw [Backend.run_guarded]
    split
    · exact Graph.Extends.refl _
    · exact keeps.grows call state
  stores := by
    rintro call ⟨watch, state⟩ id after answered
    rw [Backend.run_guarded] at answered
    split at answered
    · cases answered
    · obtain ⟨passed, rfl⟩ := Prod.mk.inj answered
      exact keeps.stores (Prod.ext passed rfl)

theorem Brush.run_connect (backend : Backend σ ν) (brush : Brush ν) (state : σ) :
    (brush.connect backend).run state =
      match brush.compiled with
      | some node => ((.ok node, brush), state)
      | none =>
          match (compile brush.options backend brush.pipeline.effects).run.run state with
          | (.ok node, after) => ((.ok node, { brush with compiled := some node }), after)
          | (.error error, after) => ((.error error, brush), after) := by
  cases held : brush.compiled with
  | some node => simp only [connect, held, StateT.run_pure]; rfl
  | none =>
      simp only [connect, held, StateT.run_bind]
      rcases (compile brush.options backend brush.pipeline.effects).run.run state with ⟨answer, after⟩
      cases answer <;> rfl

/-- A brush whose node, if it holds one, is a node of its pipeline. -/
def Brush.Faithful (graph : Graph) (brush : Brush NodeId) : Prop :=
  ∀ node, brush.compiled = some node → graph.Reads node (Effect.forgetHostBlurs brush.pipeline.effects)

theorem Brush.Faithful.mono {small large : Graph} {brush : Brush NodeId} (faithful : brush.Faithful small)
    (grows : small.Extends large) : brush.Faithful large := fun node held => (faithful node held).mono grows

theorem Brush.faithful_of_compiled_none {brush : Brush NodeId} (graph : Graph) (none : brush.compiled = none) :
    brush.Faithful graph := by
  intro node held
  rw [none] at held
  cases held

section
variable {graph : σ → Graph} {backend : Backend σ NodeId}

theorem compile_built (keeps : backend.Keeps graph) (options : CompileOptions) (effects : List Effect) (before : σ) :
    Graph.Built graph (Effect.forgetHostBlurs effects) before ((compile options backend effects).run.run before) := by
  cases checked : validate options effects with
  | error error =>
      rw [run_compile_of_rejected checked]
      exact Graph.Built.refused error
  | ok shape =>
      rw [compile_of_accepted checked]
      exact build_built keeps before effects

/-- Connecting a brush keeps every node there was, and leaves the brush with a node of its pipeline if it leaves
it with one. -/
theorem Brush.connect_faithful (keeps : backend.Keeps graph) {brush : Brush NodeId} {state : σ}
    (faithful : brush.Faithful (graph state)) :
    let ((_, after), later) := (brush.connect backend).run state
    (graph state).Extends (graph later) ∧ after.Faithful (graph later) := by
  rw [Brush.run_connect]
  cases held : brush.compiled with
  | some node => exact ⟨Graph.Extends.refl _, faithful⟩
  | none =>
      have built := compile_built keeps brush.options brush.pipeline.effects state
      generalize (compile brush.options backend brush.pipeline.effects).run.run state = outcome at built ⊢
      obtain ⟨error | root, later⟩ := outcome
      · exact ⟨built.1, Brush.faithful_of_compiled_none _ held⟩
      · refine ⟨built.1, ?_⟩
        intro node same
        cases same
        exact built.2 root rfl

end

/-- Brushes, each under a name, and the state of the backend they share. -/
structure Session (σ ι : Type) where
  state : σ
  brushes : ι → Brush NodeId

namespace Session

/-- What is done with one of the brushes, or beside them. -/
inductive Step (ι : Type) where
  | connect (name : ι)
  | disconnect (name : ι)
  | setEffects (name : ι) (pipeline : Pipeline)
  | compile (options : CompileOptions) (effects : List Effect)

def step [DecidableEq ι] (backend : Backend σ NodeId) (session : Session σ ι) : Step ι → Session σ ι
  | .connect name =>
      let ((_, brush), state) := ((session.brushes name).connect backend).run session.state
      ⟨state, Function.update session.brushes name brush⟩
  | .disconnect name =>
      { session with brushes := Function.update session.brushes name (session.brushes name).disconnect.2 }
  | .setEffects name pipeline =>
      { session with brushes := Function.update session.brushes name ((session.brushes name).setEffects pipeline) }
  | .compile options effects =>
      { session with state := ((VisualEffects.compile options backend effects).run.run session.state).2 }

def run [DecidableEq ι] (backend : Backend σ NodeId) (session : Session σ ι) (steps : List (Step ι)) : Session σ ι :=
  steps.foldl (step backend) session

/-- The start of a session: no brush has been connected. -/
def opened (state : σ) (brushes : ι → Pipeline × CompileOptions) : Session σ ι where
  state := state
  brushes name := { pipeline := (brushes name).1, options := (brushes name).2 }

def Faithful (graph : σ → Graph) (session : Session σ ι) : Prop :=
  ∀ name, (session.brushes name).Faithful (graph session.state)

theorem opened_faithful (graph : σ → Graph) (state : σ) (brushes : ι → Pipeline × CompileOptions) :
    (opened state brushes).Faithful graph := fun _ => Brush.faithful_of_compiled_none _ rfl

section
variable [DecidableEq ι] {graph : σ → Graph} {backend : Backend σ NodeId} {session : Session σ ι}

/-- The others are as faithful as before when the graph grows and one brush is replaced. -/
theorem Faithful.update (faithful : session.Faithful graph) {state : σ} {name : ι} {brush : Brush NodeId}
    (grows : (graph session.state).Extends (graph state)) (replaced : brush.Faithful (graph state)) :
    Faithful graph ⟨state, Function.update session.brushes name brush⟩ := by
  intro other
  by_cases same : other = name
  · subst same
    simpa using replaced
  · simpa [Function.update_of_ne same] using (faithful other).mono grows

theorem Faithful.step (keeps : backend.Keeps graph) (faithful : session.Faithful graph) (step : Step ι) :
    (session.step backend step).Faithful graph := by
  cases step with
  | connect name =>
      obtain ⟨grows, connected⟩ := Brush.connect_faithful keeps (faithful name)
      exact faithful.update grows connected
  | disconnect name | setEffects name pipeline =>
      exact faithful.update (Graph.Extends.refl _) (Brush.faithful_of_compiled_none _ rfl)
  | compile options effects =>
      intro name
      exact (faithful name).mono (compile_built keeps options effects session.state).1

theorem Faithful.run (keeps : backend.Keeps graph) (faithful : session.Faithful graph) (steps : List (Step ι)) :
    (session.run backend steps).Faithful graph := by
  induction steps generalizing session with
  | nil => exact faithful
  | cons step rest ih => exact ih (faithful.step keeps step)

/-- Connecting a brush that holds a node changes nothing. -/
theorem step_connect_of_compiled {name : ι} {node : NodeId} (held : (session.brushes name).compiled = some node) :
    session.step backend (.connect name) = session := by
  simp only [Session.step, Brush.run_connect, held, Function.update_eq_self]

end

/-- In every session with a graph behind a guard, exactly one list can be read back from the node of a connected
brush, which is the pipeline that the brush has by then with the blur of its host acrylics at 0, and connecting
the brush once more records nothing. -/
theorem run_reads_exactly [DecidableEq ι] (guard : Call NodeId → τ → Graph → Option Error × τ) (watch : τ) (graph : Graph)
    (brushes : ι → Pipeline × CompileOptions) (steps : List (Step ι)) (name : ι) (node : NodeId)
    (connected : (((opened (watch, graph) brushes).run (Graph.record.guarded guard) steps).brushes name).compiled =
      some node) :
    let session := (opened (watch, graph) brushes).run (Graph.record.guarded guard) steps
    (∀ effects, session.state.2.Reads node effects ↔
      effects = Effect.forgetHostBlurs (session.brushes name).pipeline.effects) ∧
    session.step (Graph.record.guarded guard) (.connect name) = session := by
  intro session
  have keeps := Graph.record_keeps.guarded guard
  have faithful := (opened_faithful (fun watched => watched.2) (watch, graph) brushes).run keeps steps
  have reads := faithful name node connected
  refine ⟨?_, step_connect_of_compiled connected⟩
  intro effects
  constructor
  · intro other
    exact other.unique reads
  · rintro rfl
    exact reads

theorem run_reads_exactly_after_refusal :
    let guard : Call NodeId → Nat → Graph → Option Error × Nat := fun _ count _ =>
      (if count = 1 then some (.failure "refused") else none, count + 1)
    let brushes (name : Bool) : Pipeline × CompileOptions :=
      if name then (⟨[.backdrop .host, .blend [.backdrop .window] .screen .background]⟩, {})
      else (⟨[.backdrop .window, .luminance]⟩, {})
    let steps : List (Step Bool) :=
      [.connect false, .connect true, .compile {} [.backdrop .window], .connect false, .setEffects false ⟨[]⟩]
    let session := (opened (0, {}) brushes).run (Graph.record.guarded guard) steps
    (session.brushes true).compiled = some 3 ∧ session.state.2.size = 7 ∧
      (∀ effects, session.state.2.Reads 3 effects ↔
        effects = [.backdrop .host, .blend [.backdrop .window] .screen .background]) ∧
      session.step (Graph.record.guarded guard) (.connect true) = session := by
  intro guard brushes steps session
  have connected : (session.brushes true).compiled = some 3 := rfl
  have size : session.state.2.size = 7 := rfl
  exact ⟨connected, size, run_reads_exactly guard 0 {} brushes steps true 3 connected⟩

end Session

end VisualEffects
