import VisualEffects.Graph.Basic

namespace VisualEffects.Graph

/-! Paths through a recorded graph.

When every node refers only to nodes that were recorded before it, a path along inputs descends through the
identifiers and has an end.  The depth of a node is then the number of nodes on the longest path from it, also when
paths meet again in a node that several others refer to.
-/

/-- Every node refers to nodes recorded before it. -/
def Ordered (graph : Graph) : Prop := ∀ id call, graph.node? id = some call → ∀ input ∈ call.inputs, input < id

/-- A path along inputs, with its nodes from the first on. -/
inductive Path (graph : Graph) : NodeId → List NodeId → Prop
  | here (found : graph.node? node = some call) : Path graph node [node]
  | along (found : graph.node? node = some call) (input : next ∈ call.inputs) (rest : Path graph next path) :
      Path graph node (node :: path)

/-- The number of nodes on the longest path from a node. -/
structure Longest (graph : Graph) (id : NodeId) (depth : Nat) : Prop where
  reached : ∃ path, graph.Path id path ∧ path.length = depth
  bounded : ∀ path, graph.Path id path → path.length ≤ depth

variable {graph : Graph} {id : NodeId} {call : Call NodeId}

theorem exists_node_of_lt (recorded : id < graph.size) : ∃ call, graph.node? id = some call :=
  ⟨graph.nodes[id], Array.getElem?_eq_getElem recorded⟩

theorem lt_size_of_node (found : graph.node? id = some call) : id < graph.size :=
  (Array.getElem?_eq_some_iff.mp found).1

theorem node?_of_size_le (unrecorded : graph.size ≤ id) : graph.node? id = none :=
  Array.getElem?_eq_none unrecorded

theorem Longest.unique {depth other : Nat} (longest : graph.Longest id depth) (again : graph.Longest id other) :
    depth = other := by
  obtain ⟨path, walked, length⟩ := longest.reached
  obtain ⟨otherPath, otherWalked, otherLength⟩ := again.reached
  have atMost := again.bounded path walked
  have atLeast := longest.bounded otherPath otherWalked
  omega

theorem deepest?_of_answered {depth? : NodeId → Option (Except Error Nat)} {ids : List NodeId}
    (answered : ∀ id ∈ ids, ∃ depth, depth? id = some (.ok depth)) :
    ∃ deepest, deepest? depth? ids = some (.ok deepest) ∧
      (∀ id ∈ ids, ∀ depth, depth? id = some (.ok depth) → depth ≤ deepest) ∧
      (deepest = 0 ∨ ∃ id ∈ ids, depth? id = some (.ok deepest)) := by
  induction ids with
  | nil => exact ⟨0, rfl, by simp, .inl rfl⟩
  | cons first rest ih =>
      obtain ⟨depth, here⟩ := answered first List.mem_cons_self
      obtain ⟨deepest, later, bound, attained⟩ := ih fun id member => answered id (List.mem_cons_of_mem _ member)
      refine ⟨max depth deepest, by simp only [deepest?, here, later], ?_, ?_⟩
      · intro id member other found
        rcases List.mem_cons.mp member with same | inRest
        · subst same
          cases here.symm.trans found
          exact Nat.le_max_left _ _
        · exact Nat.le_trans (bound id inRest other found) (Nat.le_max_right _ _)
      · rcases Nat.le_total depth deepest with deeper | shallower
        · rw [Nat.max_eq_right deeper]
          rcases attained with zero | ⟨id, member, found⟩
          · exact .inl zero
          · exact .inr ⟨id, List.mem_cons_of_mem _ member, found⟩
        · rw [Nat.max_eq_left shallower]
          exact .inr ⟨first, List.mem_cons_self, here⟩

/-- A node whose inputs reach this deep, one of them exactly, lies one deeper. -/
theorem Longest.succ {deepest : Nat} (found : graph.node? id = some call)
    (bounded : ∀ input ∈ call.inputs, ∃ depth ≤ deepest, graph.Longest input depth)
    (attained : deepest = 0 ∨ ∃ input ∈ call.inputs, graph.Longest input deepest) :
    graph.Longest id (deepest + 1) where
  reached := by
    rcases attained with zero | ⟨input, member, longest⟩
    · exact ⟨[id], .here found, by rw [zero, List.length_singleton]⟩
    · obtain ⟨path, walked, length⟩ := longest.reached
      exact ⟨id :: path, .along found member walked, by rw [List.length_cons, length]⟩
  bounded := by
    intro path walked
    cases walked with
    | here => exact Nat.le_add_left 1 deepest
    | along other member rest =>
        cases found.symm.trans other
        obtain ⟨depth, within, longest⟩ := bounded _ member
        rw [List.length_cons]
        exact Nat.succ_le_succ (Nat.le_trans (longest.bounded _ rest) within)

/-- The inputs of a node have smaller identifiers, so its depth is found in one step more than its identifier. -/
theorem depthWithin?_longest (ordered : graph.Ordered) {steps : Nat} (recorded : id < graph.size)
    (enough : id < steps) : ∃ depth, graph.depthWithin? steps id = some (.ok depth) ∧ graph.Longest id depth := by
  induction steps generalizing id with
  | zero => exact absurd enough (Nat.not_lt_zero id)
  | succ steps ih =>
      obtain ⟨call, found⟩ := exists_node_of_lt recorded
      have below : ∀ input ∈ call.inputs,
          ∃ depth, graph.depthWithin? steps input = some (.ok depth) ∧ graph.Longest input depth := by
        intro input member
        have smaller := ordered id call found input member
        exact ih (Nat.lt_trans smaller recorded) (Nat.lt_of_lt_of_le smaller (Nat.le_of_lt_succ enough))
      have longestOf : ∀ input ∈ call.inputs, ∀ depth, graph.depthWithin? steps input = some (.ok depth) →
          graph.Longest input depth := by
        intro input member depth answered
        obtain ⟨other, otherAnswered, longest⟩ := below input member
        cases answered.symm.trans otherAnswered
        exact longest
      obtain ⟨deepest, answered, bound, attained⟩ :=
        deepest?_of_answered fun input member => (below input member).imp fun _ depth => depth.1
      refine ⟨deepest + 1, by simp only [depthWithin?, found, answered], Longest.succ found ?_ ?_⟩
      · intro input member
        obtain ⟨depth, found, longest⟩ := below input member
        exact ⟨depth, bound input member depth found, longest⟩
      · rcases attained with zero | ⟨input, member, found⟩
        · exact .inl zero
        · exact .inr ⟨input, member, longestOf input member deepest found⟩

theorem depth?_longest (ordered : graph.Ordered) (recorded : id < graph.size) :
    ∃ depth, graph.depth? id = some (.ok depth) ∧ graph.Longest id depth :=
  depthWithin?_longest ordered recorded (Nat.lt_succ_of_lt recorded)

theorem depthWithin?_of_unrecorded (unrecorded : graph.size ≤ id) (steps : Nat) :
    graph.depthWithin? (steps + 1) id = some (.error (.unknownNode id)) := by
  simp only [depthWithin?, node?_of_size_le unrecorded]

/-- Looking further than the identifier of a node does not change the answer. -/
theorem depthWithin?_eq_depth? (ordered : graph.Ordered) {steps : Nat} (enough : id < steps) :
    graph.depthWithin? steps id = graph.depth? id := by
  rcases Nat.lt_or_ge id graph.size with recorded | unrecorded
  · obtain ⟨depth, answered, longest⟩ := depthWithin?_longest ordered recorded enough
    obtain ⟨other, otherAnswered, again⟩ := depth?_longest ordered recorded
    rw [answered, otherAnswered, longest.unique again]
  · obtain ⟨fewer, rfl⟩ := Nat.exists_eq_add_one_of_ne_zero (Nat.ne_zero_of_lt enough)
    rw [depth?, depthWithin?_of_unrecorded unrecorded, depthWithin?_of_unrecorded unrecorded]

end VisualEffects.Graph
