import VisualEffects.Json.Choice
import VisualEffects.Pipeline.Compile

namespace VisualEffects

/-! Recorded graphs: every call a backend was asked to make, in order.

A node is identified by its position.  The nodes a call refers to are recorded as they are given; a graph that
only refers to nodes recorded before is acyclic, and then `depth?` answers for each of its nodes.

A pipeline is compiled into a graph of its own from the empty graph on; a pipeline that fails leaves no graph.
-/

abbrev NodeId := Nat

structure Graph where
  nodes : Array (Call NodeId) := #[]
deriving DecidableEq, Inhabited

namespace Graph

/-- Positions stay below this. -/
def idLimit : Nat := UInt32.size

def size (graph : Graph) : Nat := graph.nodes.size

def isEmpty (graph : Graph) : Bool := graph.nodes.isEmpty

def node? (graph : Graph) (id : NodeId) : Option (Call NodeId) := graph.nodes[id]?

def calls (graph : Graph) : List String := graph.nodes.toList.map Call.name

def count (graph : Graph) (name : String) : Nat := graph.nodes.toList.countP (·.name == name)

/-- The backend that records every call and answers its position. -/
def record : Backend Graph NodeId := fun call => do
  let graph ← get
  if graph.size < idLimit then
    set { graph with nodes := graph.nodes.push call }
    return graph.size
  else throw .tooManyNodes

theorem run_record (call : Call NodeId) (graph : Graph) :
    (record call).run.run graph =
      if graph.size < idLimit then (.ok graph.size, ⟨graph.nodes.push call⟩) else (.error .tooManyNodes, graph) := by
  have got : (get : Action Graph Graph).run.run graph = (.ok graph, graph) := rfl
  simp only [record, run_run_bind, got]
  split <;> rfl

/-- The greatest depth among nodes, 0 when there are none; the first of them without a depth decides
otherwise. -/
def deepest? (depth? : NodeId → Option (Except Error Nat)) : List NodeId → Option (Except Error Nat)
  | [] => some (.ok 0)
  | id :: rest =>
      match depth? id with
      | some (.ok depth) =>
          match deepest? depth? rest with
          | some (.ok deepest) => some (.ok (max depth deepest))
          | other => other
      | other => other

/-- The number of nodes on the longest path from a node along inputs, as long as no path visits more than
`steps` nodes. -/
def depthWithin? (graph : Graph) : Nat → NodeId → Option (Except Error Nat)
  | 0, _ => none
  | steps + 1, id =>
      match graph.node? id with
      | none => some (.error (.unknownNode id))
      | some call =>
          match deepest? (graph.depthWithin? steps) call.inputs with
          | some (.ok deepest) => some (.ok (deepest + 1))
          | other => other

/-- The number of nodes on the longest path from `root` along inputs, or the first input on the way that was
never recorded.  There is no answer when a path comes back to a node it has visited, because such a path has
no end. -/
def depth? (graph : Graph) (root : NodeId) : Option (Except Error Nat) :=
  graph.depthWithin? (graph.size + 1) root

end Graph

/-- A graph with the node that stands for the whole pipeline. -/
structure CompiledGraph where
  root : NodeId
  graph : Graph
deriving DecidableEq, Inhabited

def compileGraph (options : CompileOptions) (effects : List Effect) : Except Error CompiledGraph :=
  match (compile options Graph.record effects).run.run {} with
  | (.ok root, graph) => .ok ⟨root, graph⟩
  | (.error error, _) => .error error

end VisualEffects
