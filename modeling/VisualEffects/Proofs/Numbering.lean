import VisualEffects.Proofs.Depths
import VisualEffects.Proofs.Recording
import VisualEffects.Proofs.Sharing

namespace VisualEffects

/-! Calls and compilations that are recorded in one graph.

A graph numbers the calls it records, those that a compilation makes among them.  As long as calls refer only to
nodes that were answered before, every node stands after its inputs, which bounds the paths through the graph
and gives every node a depth.
-/

/-- Calls with their answers, in order. -/
abbrev Trace (ν : Type) := List (Call ν × Except Error ν)

/-- The nodes with which calls were answered, in order. -/
def Trace.answers (trace : Trace ν) : List ν := trace.filterMap (·.2.toOption)

theorem Trace.answers_append (trace other : Trace ν) : (trace ++ other).answers = trace.answers ++ other.answers :=
  List.filterMap_append ..

/-- A backend that also writes down every call with its answer. -/
def Backend.traced (backend : Backend σ ν) : Backend (σ × Trace ν) ν := fun call =>
  ExceptT.mk fun (state, trace) =>
    let (answer, after) := (backend call).run.run state
    (answer, after, trace ++ [(call, answer)])

theorem Backend.run_traced (backend : Backend σ ν) (call : Call ν) (state : σ) (trace : Trace ν) :
    (backend.traced call).run.run (state, trace) =
      (((backend call).run.run state).1, ((backend call).run.run state).2,
        trace ++ [(call, ((backend call).run.run state).1)]) := rfl

theorem compile_state {options : CompileOptions} {effects : List Effect} {shape : Shape}
    (accepted : validate options effects = .ok shape) (backend : Backend σ ν) (state : σ) :
    ((compile options backend effects).run.run state).2 =
      ((execute backend (Effect.program effects) []).run.run state).2 := by
  rw [execute_program accepted, map_eq_pure_bind, run_refusing_bind]
  rcases (compile options backend effects).run.run state with ⟨error | node, after⟩ <;> rfl

theorem Backend.execute_traced (backend : Backend σ ν) (program : List Operation) (stack : List ν) (state : σ)
    (trace : Trace ν) :
    ((execute backend.traced program stack).run.run (state, trace)).2.1 =
      ((execute backend program stack).run.run state).2 := by
  induction program generalizing stack state trace with
  | nil => rfl
  | cons operation rest ih =>
      unfold execute
      cases operation.take? stack with
      | none => rfl
      | some popped =>
          obtain ⟨call, below⟩ := popped
          simp only [run_refusing_bind, run_traced]
          rcases (backend call).run.run state with ⟨error | node, after⟩
          · rfl
          · exact ih (node :: below) after _

/-- Writing calls down does not change what a compilation does to the backend. -/
theorem Backend.compile_traced (backend : Backend σ ν) (options : CompileOptions) (effects : List Effect) (state : σ)
    (trace : Trace ν) :
    ((compile options backend.traced effects).run.run (state, trace)).2.1 =
      ((compile options backend effects).run.run state).2 := by
  cases checked : validate options effects with
  | error error => rw [run_compile_of_rejected checked, run_compile_of_rejected checked]
  | ok shape => rw [compile_state checked, compile_state checked, execute_traced]

theorem Backend.Keeps.traced {backend : Backend σ NodeId} {graph : σ → Graph} (keeps : backend.Keeps graph) :
    backend.traced.Keeps fun traced => graph traced.1 where
  grows call traced := keeps.grows call traced.1
  stores := by
    intro call traced id after answered
    rw [Backend.run_traced] at answered
    obtain ⟨passed, rfl⟩ := Prod.mk.inj answered
    exact keeps.stores (Prod.ext passed rfl)

/-- What a backend keeps up as long as the calls refer to nodes that it knows. -/
structure Backend.Sustains (backend : Backend σ ν) (sound : σ → Prop) (known : σ → ν → Prop) : Prop where
  sound_call : ∀ {call state}, sound state → (∀ input ∈ call.inputs, known state input) →
    sound ((backend call).run.run state).2
  known_call : ∀ {node} call state, known state node → known ((backend call).run.run state).2 node
  known_answer : ∀ {call state node after}, (backend call).run.run state = (.ok node, after) → known after node

section
variable {backend : Backend σ ν} {sound : σ → Prop} {known : σ → ν → Prop} {state : σ}

/-- The nodes on the stack of a program are nodes that the backend answered. -/
theorem Backend.Sustains.execute (sustains : backend.Sustains sound known) (program : List Operation)
    {stack : List ν} (start : sound state) (stacked : ∀ node ∈ stack, known state node) :
    sound ((VisualEffects.execute backend program stack).run.run state).2 := by
  induction program generalizing stack state with
  | nil => exact start
  | cons operation rest ih =>
      unfold VisualEffects.execute
      cases taken : operation.take? stack with
      | none => exact start
      | some popped =>
          obtain ⟨call, below⟩ := popped
          have split := (Operation.take_eq_some taken).2
          have referred : ∀ input ∈ call.inputs, known state input := by
            intro input member
            exact stacked input (by simp [split, member])
          have next := sustains.sound_call start referred
          simp only [run_refusing_bind]
          cases answered : (backend call).run.run state with
          | mk answer after =>
              rw [answered] at next
              cases answer with
              | error error => exact next
              | ok node =>
                  refine ih next ?_
                  intro other member
                  rcases List.mem_cons.mp member with same | deeper
                  · rw [same]
                    exact sustains.known_answer answered
                  · have before := stacked other (by simp [split, deeper])
                    have after := sustains.known_call call state before
                    rwa [answered] at after

theorem Backend.Sustains.compile (sustains : backend.Sustains sound known) (options : CompileOptions)
    (effects : List Effect) (start : sound state) :
    sound ((VisualEffects.compile options backend effects).run.run state).2 := by
  cases checked : validate options effects with
  | error error =>
      rw [run_compile_of_rejected checked]
      exact start
  | ok shape =>
      rw [compile_state checked]
      exact sustains.execute (Effect.program effects) start (List.forall_mem_nil _)

end

namespace Graph

/-- What can be asked of a graph that is being recorded. -/
inductive Step where
  | call (call : Call NodeId)
  | compile (options : CompileOptions) (effects : List Effect)

/-- The nodes that a step refers to. -/
def Step.references : Step → List NodeId
  | .call made => made.inputs
  | .compile _ _ => []

/-- What a step leaves behind, whether it succeeds or not. -/
def Step.perform (backend : Backend σ NodeId) (state : σ) : Step → σ
  | .call made => ((backend made).run.run state).2
  | .compile options effects => ((VisualEffects.compile options backend effects).run.run state).2

/-- A graph, and the calls by which it was recorded. -/
abbrev Traced := Graph × Trace NodeId

def run (traced : Traced) (steps : List Step) : Traced := steps.foldl (Step.perform record.traced) traced

/-- Whether steps refer only to nodes with which an earlier call was answered. -/
def Refers : Traced → List Step → Prop
  | _, [] => True
  | traced, step :: rest =>
      (∀ input ∈ step.references, input ∈ traced.2.answers) ∧
        Refers (step.perform record.traced traced) rest

/-- A graph that was recorded by the calls of its trace: their answers are its identifiers in order. -/
structure Accounted (traced : Traced) : Prop where
  answers : traced.2.answers = List.range traced.1.size
  nodes : ∀ call id, (call, .ok id) ∈ traced.2 → traced.1.node? id = some call
  ordered : traced.1.Ordered
  limited : traced.1.size ≤ idLimit

variable {traced : Traced}

theorem Accounted.lt_size (accounted : Accounted traced) {id : NodeId} (answered : id ∈ traced.2.answers) :
    id < traced.1.size := by
  rw [accounted.answers] at answered
  exact List.mem_range.mp answered

theorem empty_accounted : Accounted ({}, []) where
  answers := rfl
  nodes _ _ member := nomatch member
  ordered _ _ found := by simp [node?] at found
  limited := Nat.zero_le _

theorem node?_push (graph : Graph) (call : Call NodeId) : node? ⟨graph.nodes.push call⟩ graph.size = some call := by
  simp [node?, size]

theorem Ordered.push {graph : Graph} {call : Call NodeId} (ordered : graph.Ordered)
    (referred : ∀ input ∈ call.inputs, input < graph.size) : Ordered ⟨graph.nodes.push call⟩ := by
  intro id other found input member
  have bound := lt_size_of_node found
  rw [size, Array.size_push] at bound
  rcases Nat.lt_succ_iff_lt_or_eq.mp bound with older | newest
  · obtain ⟨stored, recorded⟩ := exists_node_of_lt older
    cases (graph.extends_push call id stored recorded).symm.trans found
    exact ordered id _ recorded input member
  · subst newest
    cases (graph.node?_push call).symm.trans found
    exact referred input member

/-- A call is recorded under the next identifier, unless there is none left. -/
theorem record_sustains : record.traced.Sustains Accounted fun traced id => id < traced.1.size where
  sound_call := by
    intro call state accounted referred
    obtain ⟨graph, trace⟩ := state
    rw [Backend.run_traced, run_record]
    by_cases room : graph.size < idLimit
    · have size : Graph.size ⟨graph.nodes.push call⟩ = graph.size + 1 := Array.size_push ..
      rw [if_pos room]
      refine ⟨?_, ?_, accounted.ordered.push referred, ?_⟩
      · rw [Trace.answers_append, accounted.answers, size, List.range_succ]
        rfl
      · intro other id member
        rcases List.mem_append.mp member with older | newest
        · exact graph.extends_push call id other (accounted.nodes other id older)
        · cases List.mem_singleton.mp newest
          exact graph.node?_push call
      · rw [size]
        exact room
    · rw [if_neg room]
      refine ⟨?_, ?_, accounted.ordered, accounted.limited⟩
      · rw [Trace.answers_append, accounted.answers]
        exact List.append_nil _
      · intro other id member
        rcases List.mem_append.mp member with older | newest
        · exact accounted.nodes other id older
        · cases List.mem_singleton.mp newest
  known_call := by
    intro node call state known
    obtain ⟨call, found⟩ := exists_node_of_lt known
    exact lt_size_of_node (record_keeps.traced.grows _ state node call found)
  known_answer answered := lt_size_of_node (record_keeps.traced.stores answered)

theorem Accounted.perform (accounted : Accounted traced) {step : Step}
    (refers : ∀ input ∈ step.references, input ∈ traced.2.answers) :
    Accounted (step.perform record.traced traced) := by
  cases step with
  | call call => exact record_sustains.sound_call accounted fun input member => accounted.lt_size (refers input member)
  | compile options effects => exact record_sustains.compile options effects accounted

theorem Accounted.run (accounted : Accounted traced) {steps : List Step} (refers : Refers traced steps) :
    Accounted (Graph.run traced steps) := by
  induction steps generalizing traced with
  | nil => exact accounted
  | cons step rest ih => exact ih (accounted.perform refers.1) refers.2

theorem perform_graph (traced : Traced) (step : Step) :
    (step.perform record.traced traced).1 = step.perform record traced.1 := by
  cases step with
  | call call => rfl
  | compile options effects => exact record.compile_traced options effects traced.1 traced.2

theorem run_graph (traced : Traced) (steps : List Step) :
    (run traced steps).1 = steps.foldl (Step.perform record) traced.1 := by
  induction steps generalizing traced with
  | nil => rfl
  | cons step rest ih =>
      rw [List.foldl_cons, ← perform_graph]
      exact ih (step.perform record.traced traced)

theorem extends_perform (graph : Graph) (step : Step) : graph.Extends (step.perform record graph) := by
  cases step with
  | call call => exact record_keeps.grows call graph
  | compile options effects => exact (compile_built record_keeps options effects graph).1

theorem extends_foldl (graph : Graph) (steps : List Step) :
    graph.Extends (steps.foldl (Step.perform record) graph) := by
  induction steps generalizing graph with
  | nil => exact Extends.refl _
  | cons step rest ih => exact (extends_perform graph step).trans (ih _)

/-- Whatever is recorded in an empty graph, by calls and compilations that refer to nodes answered before, the
calls that succeed are answered with the identifiers 0, 1, 2 and so on.  A node is the call that was answered with
its identifier for good, and stands after its inputs.  No call is recorded any more when the identifiers are used up.
The depth of a recorded node is the length of the longest path from it, however many steps the search may take
beyond its identifier; what was never recorded has none. -/
theorem run_numbers_in_order (steps : List Step) (refers : Refers ({}, []) steps) :
    let traced := run ({}, []) steps
    let graph := steps.foldl (Step.perform record) {}
    traced.1 = graph ∧ traced.2.answers = List.range graph.size ∧
    (∀ call id, (call, .ok id) ∈ traced.2 →
      ∀ later : List Step, (later.foldl (Step.perform record) graph).node? id = some call) ∧
    (∀ id call, graph.node? id = some call →
      call.inputs.length = call.operation.arity ∧ ∀ input ∈ call.inputs, input < id) ∧
    (graph.size ≤ UInt32.size ∧ ∀ call, graph.size = UInt32.size →
      (record call).run.run graph = (.error (.validation "node id overflow"), graph)) ∧
    ∀ id,
      (id < graph.size → ∃ depth, graph.depth? id = some (.ok depth) ∧ graph.Longest id depth) ∧
      (graph.size ≤ id → graph.depth? id = some (.error (.validation ("unknown node id " ++ toString id)))) ∧
      ∀ steps, id < steps → graph.depthWithin? steps id = graph.depth? id := by
  intro traced graph
  have same : traced.1 = graph := run_graph ({}, []) steps
  have accounted : Accounted traced := empty_accounted.run refers
  rw [← same]
  refine ⟨rfl, accounted.answers, ?_, ?_, ⟨accounted.limited, ?_⟩, ?_⟩
  · intro call id answered later
    exact extends_foldl traced.1 later id call (accounted.nodes call id answered)
  · intro id call found
    exact ⟨call.length_inputs, accounted.ordered id call found⟩
  · intro call full
    have noRoom : ¬traced.1.size < idLimit := Nat.not_lt.mpr (Nat.le_of_eq full.symm)
    rw [run_record, if_neg noRoom]
    rfl
  · intro id
    refine ⟨depth?_longest accounted.ordered, ?_, fun _ => depthWithin?_eq_depth? accounted.ordered⟩
    intro unrecorded
    exact depthWithin?_of_unrecorded unrecorded traced.1.size

theorem run_numbers_in_order_of_shared_inputs :
    let steps : List Step :=
      [.call (.source .backdrop), .call (.blend .multiply .foreground 0 0),
        .compile {} [.backdrop .host, .blend [.backdrop .window] .screen .background],
        .call (.blend .screen .foreground 1 4)]
    let graph := steps.foldl (Step.perform record) {}
    Refers ({}, []) steps ∧ graph.size = 6 ∧ graph.Longest 5 3 ∧
      graph.depth? 6 = some (.error (.validation "unknown node id 6")) := by
  intro steps graph
  have refers : Refers ({}, []) steps := by
    refine ⟨?_, ?_, ?_, ?_, trivial⟩ <;> decide
  have size : graph.size = 6 := rfl
  have depths := (run_numbers_in_order steps refers).2.2.2.2.2
  obtain ⟨depth, answered, longest⟩ := (depths 5).1 (by decide)
  have three : graph.depth? 5 = some (.ok 3) := rfl
  cases three.symm.trans answered
  exact ⟨refers, size, longest, (depths 6).2.1 (by decide)⟩

end Graph

end VisualEffects
