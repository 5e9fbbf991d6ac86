import VisualEffects.Graph.Basic
import VisualEffects.Proofs.Execution
import VisualEffects.Proofs.ReadBack

namespace VisualEffects

/-! Compiling into a graph that already holds nodes.

The recording backend numbers its nodes in the order of the calls, so what it records for a program is known
without running it: the program is linked on a stack of identifiers.  Each identifier is pushed when its node
is recorded and popped by the one call that takes it, which makes the recorded nodes a tree.
-/

def Operation.arity : Operation → Nat
  | source _ => 0
  | transform _ => 1
  | blend _ _ => 2

theorem Call.length_inputs (call : Call ν) : call.inputs.length = call.operation.arity := by
  cases call <;> rfl

theorem Operation.take_eq_some {operation : Operation} {stack below : List ν} {call : Call ν}
    (taken : operation.take? stack = some (call, below)) :
    call.operation = operation ∧ stack = call.inputs.reverse ++ below := by
  unfold Operation.take? at taken
  split at taken <;> cases taken <;> exact ⟨rfl, rfl⟩

theorem Operation.take_map (f : ν → μ) {operation : Operation} {stack below : List ν} {call : Call ν}
    (taken : operation.take? stack = some (call, below)) :
    operation.take? (stack.map f) = some (call.map f, below.map f) := by
  unfold Operation.take? at taken
  split at taken <;> cases taken <;> rfl

theorem Operation.take_append {operation : Operation} {stack below : List ν} {call : Call ν}
    (taken : operation.take? stack = some (call, below)) (deeper : List ν) :
    operation.take? (stack ++ deeper) = some (call, below ++ deeper) := by
  unfold Operation.take? at taken
  split at taken <;> cases taken <;> rfl

/-- The calls of a program whose nodes are numbered from `next` on, and the stack they leave. -/
inductive Linked : NodeId → List NodeId → List Operation → List (Call NodeId) → List NodeId → Prop
  | nil {next : NodeId} {stack : List NodeId} : Linked next stack [] [] stack
  | cons {operation : Operation} {stack : List NodeId} {call : Call NodeId} {below : List NodeId} {next : NodeId}
      {rest : List Operation} {calls : List (Call NodeId)} {last : List NodeId}
      (taken : operation.take? stack = some (call, below))
      (others : Linked (next + 1) (next :: below) rest calls last) :
      Linked next stack (operation :: rest) (call :: calls) last

namespace Linked

variable {next : NodeId} {stack last : List NodeId} {program : List Operation} {calls : List (Call NodeId)}

theorem operations (linked : Linked next stack program calls last) : calls.map Call.operation = program := by
  induction linked with
  | nil => rfl
  | cons taken _ ih => rw [List.map_cons, ih, (Operation.take_eq_some taken).1]

theorem length (linked : Linked next stack program calls last) : calls.length = program.length := by
  rw [← linked.operations, List.length_map]

theorem unique {otherCalls : List (Call NodeId)} {otherLast : List NodeId}
    (linked : Linked next stack program calls last) (other : Linked next stack program otherCalls otherLast) :
    calls = otherCalls ∧ last = otherLast := by
  induction linked generalizing otherCalls with
  | nil =>
      cases other
      exact ⟨rfl, rfl⟩
  | cons taken _ ih =>
      cases other with
      | cons otherTaken others =>
          cases taken.symm.trans otherTaken
          obtain ⟨rfl, rfl⟩ := ih others
          exact ⟨rfl, rfl⟩

theorem shift (linked : Linked next stack program calls last) (offset : Nat) :
    Linked (next + offset) (stack.map (· + offset)) program (calls.map (Call.map (· + offset)))
      (last.map (· + offset)) := by
  induction linked with
  | nil => exact .nil
  | cons taken _ ih =>
      rw [Nat.add_right_comm] at ih
      exact .cons (Operation.take_map _ taken) ih

theorem append {middle : List NodeId} {later : List Operation} {others : List (Call NodeId)}
    (linked : Linked next stack program calls middle)
    (following : Linked (next + calls.length) middle later others last) :
    Linked next stack (program ++ later) (calls ++ others) last := by
  induction linked with
  | nil => exact following
  | @cons operation stack call below next rest calls middle taken _ ih =>
      rw [List.length_cons, Nat.add_comm calls.length, ← Nat.add_assoc] at following
      exact .cons taken (ih following)

theorem split {earlier : List Operation} (linked : Linked next stack (earlier ++ program) calls last) :
    ∃ first others middle, calls = first ++ others ∧ Linked next stack earlier first middle ∧
      Linked (next + first.length) middle program others last := by
  induction earlier generalizing next stack calls with
  | nil => exact ⟨[], calls, stack, rfl, .nil, linked⟩
  | cons operation rest ih =>
      cases linked with
      | @cons _ _ call below _ _ calls _ taken others =>
          obtain ⟨first, following, middle, rfl, before, after⟩ := ih others
          refine ⟨call :: first, following, middle, rfl, .cons taken before, ?_⟩
          rwa [List.length_cons, Nat.add_comm first.length, ← Nat.add_assoc]

/-- A program does not notice what lies below its stack. -/
theorem above (linked : Linked next stack program calls last) (deeper : List NodeId) :
    Linked next (stack ++ deeper) program calls (last ++ deeper) := by
  induction linked with
  | nil => exact .nil
  | cons taken _ ih => exact .cons (Operation.take_append taken deeper) ih

/-- Every identifier that is pushed is popped once or left on the stack. -/
theorem inputs_perm (linked : Linked next stack program calls last) :
    (calls.flatMap Call.inputs ++ last).Perm (stack ++ List.range' next calls.length) := by
  induction linked with
  | nil => simp
  | @cons operation stack call below next rest calls last taken _ ih =>
      have pushed : (call.inputs ++ below ++ next :: List.range' (next + 1) calls.length).Perm
          (stack ++ List.range' next (calls.length + 1)) := by
        rw [(Operation.take_eq_some taken).2, List.range'_succ]
        exact ((List.reverse_perm call.inputs).symm.append_right below).append_right _
      refine List.Perm.trans ?_ pushed
      rw [List.flatMap_cons, List.append_assoc, List.append_assoc]
      refine List.Perm.append_left _ (ih.trans ?_)
      exact List.perm_middle.symm

theorem inputs_bounded {base : NodeId} (linked : Linked next stack program calls last)
    (known : ∀ node ∈ stack, base ≤ node ∧ node < next) (started : base ≤ next) {position : Nat}
    {call : Call NodeId} (found : calls[position]? = some call) :
    ∀ input ∈ call.inputs, base ≤ input ∧ input < next + position := by
  induction linked generalizing position with
  | nil => cases found
  | @cons operation stack head below next rest calls last taken _ ih =>
      have popped := (Operation.take_eq_some taken).2
      cases position with
      | zero =>
          cases found
          intro input member
          exact known input (by simp [popped, member])
      | succ position =>
          have pushed : ∀ node ∈ next :: below, base ≤ node ∧ node < next + 1 := by
            intro node member
            rcases List.mem_cons.mp member with rfl | deeper
            · exact ⟨started, Nat.lt_succ_self _⟩
            · obtain ⟨lower, upper⟩ := known node (by simp [popped, deeper])
              exact ⟨lower, Nat.lt_succ_of_lt upper⟩
          have bounded := ih pushed (Nat.le_succ_of_le started) found
          rwa [Nat.add_right_comm, Nat.add_assoc] at bounded

/-- The node recorded last is on top of the stack. -/
theorem newest_on_top (linked : Linked next stack program calls last) (nonempty : calls ≠ []) :
    ∃ node below, last = node :: below ∧ node + 1 = next + calls.length := by
  induction linked with
  | nil => exact absurd rfl nonempty
  | @cons operation stack call below next rest calls last taken others ih =>
      cases others with
      | nil => exact ⟨next, below, rfl, rfl⟩
      | cons otherTaken later =>
          obtain ⟨node, deeper, top, count⟩ := ih (List.cons_ne_nil _ _)
          exact ⟨node, deeper, top, count.trans (Nat.succ_add_eq_add_succ _ _)⟩

end Linked

/-- Calls recorded from `first` on as a tree: a call refers to earlier ones, the last one is the root, and every
other one is referred to once. -/
structure IsTree (first : NodeId) (calls : List (Call NodeId)) (root : NodeId) : Prop where
  newest : root + 1 = first + calls.length
  arity : ∀ call ∈ calls, call.inputs.length = call.operation.arity
  earlier : ∀ position call, calls[position]? = some call →
    ∀ input ∈ call.inputs, first ≤ input ∧ input < first + position
  usedOnce : ∀ node, first ≤ node → node < root → (calls.flatMap Call.inputs).count node = 1
  rootUnused : root ∉ calls.flatMap Call.inputs

theorem Linked.isTree {next root : NodeId} {program : List Operation} {calls : List (Call NodeId)}
    (linked : Linked next [] program calls [root]) : IsTree next calls root := by
  have nonempty : calls ≠ [] := by
    rintro rfl
    cases linked
  obtain ⟨node, below, same, newest⟩ := linked.newest_on_top nonempty
  cases same
  have uses (node : Nat) : (calls.flatMap Call.inputs).count node + [root].count node =
      if next ≤ node ∧ node < next + calls.length then 1 else 0 := by
    rw [← List.count_append, linked.inputs_perm.count_eq, List.nil_append, List.count_range_1']
  refine ⟨newest, fun call _ => call.length_inputs, ?_, ?_, ?_⟩
  · intro position call found
    exact linked.inputs_bounded (fun _ known => nomatch known) (Nat.le_refl next) found
  · intro node recorded older
    have once := uses node
    have inside : node < next + calls.length := newest ▸ Nat.lt_succ_of_lt older
    rw [if_pos ⟨recorded, inside⟩, List.count_singleton, if_neg] at once
    · exact once
    · simpa using Nat.ne_of_gt older
  · intro used
    have twice := uses root
    have positive := List.count_pos_iff.mpr used
    rw [List.count_singleton_self] at twice
    split at twice <;> omega

namespace Graph

def append (graph : Graph) (calls : List (Call NodeId)) : Graph := ⟨graph.nodes ++ calls.toArray⟩

theorem append_nil (graph : Graph) : graph.append [] = graph := by
  simp [append]

theorem append_push (graph : Graph) (call : Call NodeId) (calls : List (Call NodeId)) :
    append ⟨graph.nodes.push call⟩ calls = graph.append (call :: calls) := by
  simp [append]

theorem length_nodes (graph : Graph) : graph.nodes.toList.length = graph.size := rfl

theorem eq_append_of_nodes {graph start : Graph} {calls : List (Call NodeId)}
    (nodes : graph.nodes.toList = start.nodes.toList ++ calls) : graph = start.append calls := by
  obtain ⟨⟨list⟩⟩ := graph
  cases nodes
  simp [append]

theorem empty_append_nodes (calls : List (Call NodeId)) : (append {} calls).nodes.toList = calls := by
  simp [append]

theorem append_nodes (graph : Graph) (calls : List (Call NodeId)) :
    (graph.append calls).nodes.toList = graph.nodes.toList ++ calls := by
  simp [append]

theorem size_append (graph : Graph) (calls : List (Call NodeId)) :
    (graph.append calls).size = graph.size + calls.length := by
  simp [append, size]

theorem node?_append_of_lt {graph : Graph} {id : NodeId} (recorded : id < graph.size) (calls : List (Call NodeId)) :
    (graph.append calls).node? id = graph.node? id :=
  Array.getElem?_append_left recorded

end Graph

theorem Linked.execute_record {graph : Graph} {next : NodeId} {stack last : List NodeId} {program : List Operation}
    {calls : List (Call NodeId)} (linked : Linked next stack program calls last) (size : graph.size = next)
    (room : next + program.length ≤ Graph.idLimit) :
    (execute Graph.record program stack).run.run graph = (.ok last, graph.append calls) := by
  induction linked generalizing graph with
  | nil => rw [graph.append_nil]; rfl
  | @cons operation stack call below next rest calls last taken _ ih =>
      subst size
      have here : graph.size < Graph.idLimit := Nat.lt_of_lt_of_le (Nat.lt_add_of_pos_right (Nat.succ_pos _)) room
      have pushed : Graph.size ⟨graph.nodes.push call⟩ = graph.size + 1 := Array.size_push ..
      rw [List.length_cons, Nat.add_comm rest.length, ← Nat.add_assoc] at room
      have later := ih pushed room
      rw [Graph.append_push] at later
      simp only [execute, taken, run_refusing_bind, Graph.run_record, if_pos here]
      exact later

/-- A program is recorded as it is linked, unless the identifiers run out or its stack does. -/
theorem execute_record (program : List Operation) (stack : List NodeId) (graph : Graph) :
    (∃ calls last, Linked graph.size stack program calls last ∧
      (graph.size ≤ Graph.idLimit → graph.size + program.length ≤ Graph.idLimit) ∧
      (execute Graph.record program stack).run.run graph = (.ok last, graph.append calls)) ∨
    (∃ after, Graph.idLimit < graph.size + program.length ∧
      (execute Graph.record program stack).run.run graph = (.error (.refused .tooManyNodes), after)) ∨
    ∃ after, (execute Graph.record program stack).run.run graph = (.error .starved, after) := by
  induction program generalizing stack graph with
  | nil => exact .inl ⟨[], stack, .nil, id, by rw [graph.append_nil]; rfl⟩
  | cons operation rest ih =>
      unfold execute
      cases taken : operation.take? stack with
      | none => exact .inr (.inr ⟨graph, rfl⟩)
      | some popped =>
          obtain ⟨call, below⟩ := popped
          simp only [run_refusing_bind, Graph.run_record]
          by_cases room : graph.size < Graph.idLimit
          · have size : Graph.size ⟨graph.nodes.push call⟩ = graph.size + 1 := Array.size_push ..
            have later := ih (graph.size :: below) ⟨graph.nodes.push call⟩
            simp only [if_pos room]
            rw [size, Nat.add_assoc, Nat.add_comm 1] at later
            obtain ⟨calls, last, linked, fits, recorded⟩ | overflow | starved := later
            · refine .inl ⟨call :: calls, last, .cons taken linked, fun _ => fits room, ?_⟩
              rw [recorded, Graph.append_push]
            · exact .inr (.inl overflow)
            · exact .inr (.inr starved)
          · simp only [if_neg room]
            refine .inr (.inl ⟨graph, ?_, rfl⟩)
            rw [List.length_cons]
            omega

/-- An accepted pipeline is recorded as its program is linked, unless the identifiers run out. -/
theorem compile_record {options : CompileOptions} {effects : List Effect} {shape : Shape}
    (accepted : validate options effects = .ok shape) (graph : Graph) :
    (∃ calls root, Linked graph.size [] (Effect.program effects) calls [root] ∧
      (graph.size ≤ Graph.idLimit → graph.size + (Effect.everywhere effects).length ≤ Graph.idLimit) ∧
      (compile options Graph.record effects).run.run graph = (.ok root, graph.append calls)) ∨
    ∃ after, Graph.idLimit < graph.size + (Effect.everywhere effects).length ∧
      (compile options Graph.record effects).run.run graph = (.error .tooManyNodes, after) := by
  have executed := execute_record (Effect.program effects) [] graph
  rw [execute_program accepted Graph.record, map_eq_pure_bind, run_refusing_bind,
    Effect.length_program accepted] at executed
  generalize (compile options Graph.record effects).run.run graph = outcome at executed ⊢
  obtain ⟨error | root, after⟩ := outcome
  · obtain ⟨_, _, _, _, answered⟩ | ⟨state, overflow, answered⟩ | ⟨_, answered⟩ := executed
    · cases answered
    · cases answered
      exact .inr ⟨_, overflow, rfl⟩
    · cases answered
  · obtain ⟨calls, last, linked, fits, answered⟩ | ⟨_, _, answered⟩ | ⟨_, answered⟩ := executed
    · cases answered
      exact .inl ⟨calls, root, linked, fits, rfl⟩
    · cases answered
    · cases answered

theorem exists_validate_of_compileGraph {options : CompileOptions} {effects : List Effect} {compiled : CompiledGraph}
    (compiles : compileGraph options effects = .ok compiled) : ∃ shape, validate options effects = .ok shape := by
  cases checked : validate options effects with
  | ok shape => exact ⟨shape, rfl⟩
  | error error =>
      rw [compileGraph, run_compile_of_rejected checked] at compiles
      cases compiles

/-- A graph that holds the linked calls of a program, the last of them being the root. -/
def CompiledGraph.Links (compiled : CompiledGraph) (program : List Operation) : Prop :=
  Linked 0 [] program compiled.graph.nodes.toList [compiled.root]

namespace CompiledGraph.Links

variable {compiled other : CompiledGraph} {program : List Operation}

theorem size (links : compiled.Links program) : compiled.graph.size = program.length :=
  links.length

theorem unique (links : compiled.Links program) (otherLinks : other.Links program) : compiled = other := by
  obtain ⟨nodes, root⟩ := Linked.unique links otherLinks
  obtain ⟨root, ⟨⟨calls⟩⟩⟩ := compiled
  cases nodes
  cases root
  rfl

theorem append {rest : List Operation} {calls : List (Call NodeId)} {root : NodeId} (links : compiled.Links program)
    (following : Linked compiled.graph.size [compiled.root] rest calls [root]) :
    Links ⟨root, compiled.graph.append calls⟩ (program ++ rest) := by
  unfold Links
  rw [Graph.append_nodes]
  refine Linked.append links ?_
  rwa [Nat.zero_add]

end CompiledGraph.Links

/-- An accepted pipeline is compiled into the linked calls of its program, if there are identifiers for them. -/
theorem compileGraph_eq_ok {options : CompileOptions} {effects : List Effect} {shape : Shape}
    (accepted : validate options effects = .ok shape) {compiled : CompiledGraph} :
    compileGraph options effects = .ok compiled ↔
      (Effect.program effects).length ≤ Graph.idLimit ∧ compiled.Links (Effect.program effects) := by
  have none : Graph.size {} = 0 := rfl
  have recorded := compile_record accepted {}
  rw [none, Nat.zero_add, ← Effect.length_program accepted] at recorded
  unfold compileGraph
  obtain ⟨calls, root, linked, fits, answered⟩ | ⟨after, overflow, answered⟩ := recorded
  · have links : CompiledGraph.Links ⟨root, Graph.append {} calls⟩ (Effect.program effects) := by
      unfold CompiledGraph.Links
      rwa [Graph.empty_append_nodes]
    rw [answered]
    constructor
    · rintro ⟨⟩
      exact ⟨fits (Nat.zero_le _), links⟩
    · rintro ⟨_, other⟩
      cases links.unique other
      rfl
  · rw [answered]
    refine iff_of_false nofun ?_
    rintro ⟨room, _⟩
    exact absurd room (Nat.not_le.mpr overflow)

/-- As long as the identifiers suffice, an accepted pipeline is appended to whatever was recorded before: a node
for every effect, forming a tree from which the pipeline can be read back, and differing from the nodes of the
pipeline compiled on its own by the number of nodes before it. -/
theorem compile_appends_tree {options : CompileOptions} {effects : List Effect} {shape : Shape} (graph : Graph)
    (accepted : validate options effects = .ok shape)
    (room : graph.size + (Effect.everywhere effects).length ≤ Graph.idLimit) :
    ∃ calls root, (compile options Graph.record effects).run.run graph = (.ok root, graph.append calls) ∧
      calls.length = (Effect.everywhere effects).length ∧
      (calls.map Call.operation).Perm ((Effect.everywhere effects).filterMap Effect.operation?) ∧
      IsTree graph.size calls root ∧
      (graph.append calls).Reads root (Effect.forgetHostBlurs effects) ∧
      ∃ alone, compileGraph options effects = .ok alone ∧
        calls = alone.graph.nodes.toList.map (Call.map (· + graph.size)) ∧ root = alone.root + graph.size := by
  obtain ⟨calls, root, linked, _, compiled⟩ | ⟨_, overflow, _⟩ := compile_record accepted graph
  · obtain ⟨aloneCalls, aloneRoot, aloneLinked, _, aloneCompiled⟩ | ⟨_, overflow, _⟩ := compile_record accepted {}
    · have read := build_built Graph.record_keeps graph effects
      rw [← compile_of_accepted accepted, compiled] at read
      have shifted := aloneLinked.shift graph.size
      rw [show Graph.size {} + graph.size = graph.size from Nat.zero_add _] at shifted
      obtain ⟨sameCalls, sameRoot⟩ := linked.unique shifted
      refine ⟨calls, root, compiled, ?_, ?_, linked.isTree, read.2 root rfl, ⟨aloneRoot, Graph.append {} aloneCalls⟩, ?_, ?_, ?_⟩
      · rw [linked.length, Effect.length_program accepted]
      · rw [linked.operations]
        exact Effect.operations_everywhere_perm effects
      · rw [compileGraph, aloneCompiled]
      · rw [Graph.empty_append_nodes, sameCalls]
      · exact List.head_eq_of_cons_eq sameRoot
    · have fewer := Nat.add_le_add_right (Nat.zero_le graph.size) (Effect.everywhere effects).length
      exact absurd overflow (Nat.not_lt.mpr (Nat.le_trans fewer room))
  · exact absurd overflow (Nat.not_lt.mpr room)

theorem compile_appends_tree_of_blend :
    let graph : Graph := ⟨#[.source .backdrop]⟩
    let effects : List Effect := [.backdrop .host, .blend [.backdrop .window, .luminance] .multiply .foreground]
    validate {} effects = .ok ⟨2, 2, 1, 1⟩ ∧ graph.size + (Effect.everywhere effects).length ≤ Graph.idLimit ∧
      ∃ calls root, (compile {} Graph.record effects).run.run graph = (.ok root, graph.append calls) ∧
        calls.length = 4 ∧ IsTree 1 calls root := by
  intro graph effects
  have accepted : validate {} effects = .ok ⟨2, 2, 1, 1⟩ := rfl
  have room : graph.size + (Effect.everywhere effects).length ≤ Graph.idLimit := by decide
  obtain ⟨calls, root, compiled, count, _, tree, _⟩ := compile_appends_tree graph accepted room
  exact ⟨accepted, room, calls, root, compiled, count, tree⟩

end VisualEffects
