import Mathlib.Data.Fintype.Card
import VisualEffects.Proofs.Depths

namespace VisualEffects.Graph

/-! Graphs recorded from calls that refer to any node whatever.

A call is recorded with the identifiers it names, and nothing asks whether they have been given out.  So the graph is
ordered only when each call keeps to the nodes before it, and a walk along inputs may go on for ever.  The bounded
search for a depth gives up exactly there: it answers with what the recursion along inputs returns, if that
returns at all.
-/

/-- What is recorded of calls, in an empty graph; a call that is refused leaves the graph as it was. -/
def recordAll (calls : List (Call NodeId)) : Graph :=
  calls.foldl (fun graph call => ((record call).run.run graph).2) {}

mutual
/-- What the recursion along inputs returns from a node, however deep it has to go. -/
inductive Returns (graph : Graph) : NodeId → Except Error Nat → Prop
  | unrecorded (missing : graph.node? node = none) : Returns graph node (.error (.unknownNode node))
  | recorded (found : graph.node? node = some call) (inputs : ReturnsDeepest graph call.inputs answer) :
      Returns graph node (answer.map (· + 1))

/-- What it returns from inputs that are visited one after the other. -/
inductive ReturnsDeepest (graph : Graph) : List NodeId → Except Error Nat → Prop
  | none : ReturnsDeepest graph [] (.ok 0)
  | failed (first : Returns graph node (.error error)) : ReturnsDeepest graph (node :: rest) (.error error)
  | next (first : Returns graph node (.ok depth)) (others : ReturnsDeepest graph rest answer) :
      ReturnsDeepest graph (node :: rest) (answer.map (max depth))
end

/-- The recursion goes on from a node to one of its inputs: those before it have a depth. -/
def Descends (graph : Graph) (id next : NodeId) : Prop :=
  ∃ call before after, graph.node? id = some call ∧ call.inputs = before ++ next :: after ∧
    ∀ earlier ∈ before, ∃ depth, graph.depth? earlier = some (.ok depth)

/-- A walk without an end along which the recursion goes. -/
def Endless (graph : Graph) (id : NodeId) : Prop :=
  ∃ walk : Nat → NodeId, walk 0 = id ∧ ∀ n, graph.Descends (walk n) (walk (n + 1))

variable {graph : Graph} {id : NodeId} {answer : Except Error Nat}

section
variable {first second : NodeId → Option (Except Error Nat)} {ids : List NodeId}

theorem deepest?_congr (same : ∀ id ∈ ids, first id = second id) : deepest? first ids = deepest? second ids := by
  induction ids with
  | nil => rfl
  | cons id rest ih =>
      obtain ⟨here, others⟩ := List.forall_mem_cons.mp same
      rw [deepest?, deepest?, here, ih others]

theorem deepest?_mono (kept : ∀ id ∈ ids, ∀ answer, first id = some answer → second id = some answer)
    (found : deepest? first ids = some answer) : deepest? second ids = some answer := by
  induction ids generalizing answer with
  | nil => exact found
  | cons id rest ih =>
      obtain ⟨here, others⟩ := List.forall_mem_cons.mp kept
      cases head : first id with
      | none => simp [deepest?, head] at found
      | some outcome =>
          cases outcome with
          | error error => simpa [deepest?, head, here _ head] using found
          | ok depth =>
              cases tail : deepest? first rest with
              | none => simp [deepest?, head, tail] at found
              | some deepest => simpa [deepest?, head, tail, here _ head, ih others tail] using found

theorem exists_unanswered (unanswered : deepest? first ids = none) :
    ∃ before id after, ids = before ++ id :: after ∧ first id = none ∧
      ∀ earlier ∈ before, ∃ depth, first earlier = some (.ok depth) := by
  induction ids with
  | nil => cases unanswered
  | cons id rest ih =>
      cases head : first id with
      | none => exact ⟨[], id, rest, rfl, head, List.forall_mem_nil _⟩
      | some outcome =>
          cases outcome with
          | error error => simp [deepest?, head] at unanswered
          | ok depth =>
              have later : deepest? first rest = none := by
                cases tail : deepest? first rest with
                | none => rfl
                | some other => rcases other with _ | _ <;> simp [deepest?, head, tail] at unanswered
              obtain ⟨before, id', after, parted, none, answered⟩ := ih later
              exact ⟨id :: before, id', after, by rw [parted, List.cons_append], none,
                List.forall_mem_cons.mpr ⟨⟨depth, head⟩, answered⟩⟩

theorem deepest?_eq_none {before after : List NodeId} (unanswered : first id = none)
    (answered : ∀ earlier ∈ before, first earlier = none ∨ ∃ depth, first earlier = some (.ok depth)) :
    deepest? first (before ++ id :: after) = none := by
  induction before with
  | nil => simp [deepest?, unanswered]
  | cons earlier rest ih =>
      obtain ⟨here, others⟩ := List.forall_mem_cons.mp answered
      rcases here with none | ⟨depth, found⟩
      · simp [deepest?, none]
      · simp [deepest?, found, ih others]

end

section
variable {steps : Nat}

theorem depthWithin?_succ (answered : graph.depthWithin? steps id = some answer) :
    graph.depthWithin? (steps + 1) id = some answer := by
  induction steps generalizing id answer with
  | zero => cases answered
  | succ steps ih =>
      cases found : graph.node? id with
      | none => simpa only [depthWithin?, found] using answered
      | some call =>
          cases inputs : deepest? (graph.depthWithin? steps) call.inputs with
          | none => simp [depthWithin?, found, inputs] at answered
          | some deepest =>
              have again := deepest?_mono (fun _ _ _ => ih) inputs
              rw [depthWithin?, found]
              rw [depthWithin?, found] at answered
              simpa only [again, inputs] using answered

theorem depthWithin?_mono {more : Nat} (within : steps ≤ more) (answered : graph.depthWithin? steps id = some answer) :
    graph.depthWithin? more id = some answer := by
  induction within with
  | refl => exact answered
  | step _ ih => exact depthWithin?_succ ih

/-- A node for which the search needs one step more than `steps`. -/
def NeedsMore (graph : Graph) (steps : Nat) (id : NodeId) : Prop :=
  graph.depthWithin? steps id = none ∧ ∃ answer, graph.depthWithin? (steps + 1) id = some answer

theorem NeedsMore.unique {other : Nat} (needs : graph.NeedsMore steps id) (again : graph.NeedsMore other id) :
    steps = other := by
  have bound {few many : Nat} (less : graph.NeedsMore few id) (more : graph.NeedsMore many id) : many ≤ few := by
    obtain ⟨_, answer, answered⟩ := less
    by_contra beyond
    cases more.1.symm.trans (depthWithin?_mono (Nat.lt_of_not_le beyond) answered)
  exact Nat.le_antisymm (bound again needs) (bound needs again)

theorem NeedsMore.input (needs : graph.NeedsMore (steps + 1) id) :
    id < graph.size ∧ ∃ input, graph.NeedsMore steps input := by
  obtain ⟨unanswered, answer, answered⟩ := needs
  cases found : graph.node? id with
  | none => simp [depthWithin?, found] at unanswered
  | some call =>
      refine ⟨lt_size_of_node found, ?_⟩
      by_contra none
      have same : ∀ input ∈ call.inputs, graph.depthWithin? steps input = graph.depthWithin? (steps + 1) input := by
        intro input _
        cases before : graph.depthWithin? steps input with
        | some depth => exact (depthWithin?_succ before).symm
        | none =>
            cases after : graph.depthWithin? (steps + 1) input with
            | none => rfl
            | some depth => exact absurd ⟨input, before, depth, after⟩ none
      rw [depthWithin?, found] at unanswered answered
      simp only [deepest?_congr same] at unanswered
      cases unanswered.symm.trans answered

theorem NeedsMore.below (needs : graph.NeedsMore steps id) {fewer : Nat} (within : fewer ≤ steps) :
    ∃ node, graph.NeedsMore fewer node := by
  induction within using Nat.decreasingInduction with
  | self => exact ⟨id, needs⟩
  | of_succ _ _ ih => exact ih.elim fun _ more => more.input.2

theorem NeedsMore.le_size (needs : graph.NeedsMore steps id) : steps ≤ graph.size := by
  -- Each number of steps up to the one that is needed is needed by a recorded node, and no node needs two of them.
  have each (n : Fin steps) : ∃ node : Fin graph.size, graph.NeedsMore (n + 1) node := by
    obtain ⟨node, more⟩ := needs.below n.isLt
    exact ⟨⟨node, more.input.1⟩, more⟩
  choose node more using each
  have injective : Function.Injective node := by
    intro n m same
    have equal := (more n).unique (same ▸ more m)
    exact Fin.ext (Nat.succ.inj equal)
  simpa only [Fintype.card_fin] using Fintype.card_le_of_injective node injective

/-- As many steps as there are nodes, and one for a node that was never recorded, are enough. -/
theorem depth?_of_depthWithin? (answered : graph.depthWithin? steps id = some answer) :
    graph.depth? id = some answer := by
  induction steps with
  | zero => cases answered
  | succ steps ih =>
      cases before : graph.depthWithin? steps id with
      | some other =>
          cases answered.symm.trans (depthWithin?_succ before)
          exact ih before
      | none =>
          have needs : graph.NeedsMore steps id := ⟨before, answer, answered⟩
          exact depthWithin?_mono (Nat.succ_le_succ needs.le_size) answered

end

theorem depth?_eq (graph : Graph) (id : NodeId) :
    graph.depth? id =
      match graph.node? id with
      | none => some (.error (.unknownNode id))
      | some call =>
          match deepest? graph.depth? call.inputs with
          | some (.ok deepest) => some (.ok (deepest + 1))
          | other => other := by
  have further : graph.depth? id = graph.depthWithin? (graph.size + 2) id := by
    cases answered : graph.depthWithin? (graph.size + 2) id with
    | some answer => exact depth?_of_depthWithin? answered
    | none =>
        cases before : graph.depth? id with
        | none => rfl
        | some answer => cases answered.symm.trans (depthWithin?_succ before)
  exact further

mutual
theorem depth?_of_returns {node : NodeId} {result : Except Error Nat} (returns : graph.Returns node result) :
    graph.depth? node = some result :=
  match returns with
  | .unrecorded missing => by
      rw [depth?_eq, missing]
  | @Returns.recorded _ _ _ deepest found inputs => by
      rw [depth?_eq, found]
      simp only [deepest?_of_returns inputs]
      cases deepest <;> rfl

theorem deepest?_of_returns {nodes : List NodeId} {result : Except Error Nat}
    (returns : graph.ReturnsDeepest nodes result) : deepest? graph.depth? nodes = some result :=
  match returns with
  | .none => rfl
  | .failed first => by
      rw [deepest?, depth?_of_returns first]
  | @ReturnsDeepest.next _ _ _ _ deepest first others => by
      rw [deepest?, depth?_of_returns first, deepest?_of_returns others]
      cases deepest <;> rfl
end

theorem returnsDeepest_of_deepest? {depth? : NodeId → Option (Except Error Nat)}
    (returns : ∀ id answer, depth? id = some answer → graph.Returns id answer) {ids : List NodeId}
    (found : deepest? depth? ids = some answer) : graph.ReturnsDeepest ids answer := by
  induction ids generalizing answer with
  | nil =>
      cases found
      exact .none
  | cons id rest ih =>
      cases head : depth? id with
      | none => simp [deepest?, head] at found
      | some outcome =>
          have first := returns id outcome head
          cases outcome with
          | error error =>
              simp only [deepest?, head, Option.some.injEq] at found
              exact found ▸ .failed first
          | ok depth =>
              cases tail : deepest? depth? rest with
              | none => simp [deepest?, head, tail] at found
              | some others =>
                  have next := ReturnsDeepest.next first (ih tail)
                  cases others <;> simp only [deepest?, head, tail, Option.some.injEq] at found <;> exact found ▸ next

theorem returns_of_depthWithin? {steps : Nat} (answered : graph.depthWithin? steps id = some answer) :
    graph.Returns id answer := by
  induction steps generalizing id answer with
  | zero => cases answered
  | succ steps ih =>
      cases found : graph.node? id with
      | none =>
          simp only [depthWithin?, found, Option.some.injEq] at answered
          exact answered ▸ .unrecorded found
      | some call =>
          cases inputs : deepest? (graph.depthWithin? steps) call.inputs with
          | none => simp [depthWithin?, found, inputs] at answered
          | some deepest =>
              have recorded := Returns.recorded found (returnsDeepest_of_deepest? (fun _ _ => ih) inputs)
              cases deepest <;> simp only [depthWithin?, found, inputs, Option.some.injEq] at answered <;>
                exact answered ▸ recorded

theorem depth?_eq_some_iff : graph.depth? id = some answer ↔ graph.Returns id answer :=
  ⟨returns_of_depthWithin?, depth?_of_returns⟩

theorem exists_descends (unanswered : graph.depth? id = none) :
    ∃ next, graph.Descends id next ∧ graph.depth? next = none := by
  rw [depth?_eq] at unanswered
  cases found : graph.node? id with
  | none => simp [found] at unanswered
  | some call =>
      have inputs : deepest? graph.depth? call.inputs = none := by
        cases deepest : deepest? graph.depth? call.inputs with
        | none => rfl
        | some answer => rcases answer with _ | _ <;> simp [found, deepest] at unanswered
      obtain ⟨before, next, after, parted, none, answered⟩ := exists_unanswered inputs
      exact ⟨next, ⟨call, before, after, found, parted, answered⟩, none⟩

theorem depthWithin?_of_endless {walk : Nat → NodeId} (walked : ∀ n, graph.Descends (walk n) (walk (n + 1)))
    (steps n : Nat) : graph.depthWithin? steps (walk n) = none := by
  -- The bound is used up one node at a time, from whichever place of the walk the search starts.
  induction steps generalizing n with
  | zero => rfl
  | succ steps ih =>
      obtain ⟨call, before, after, found, parted, answered⟩ := walked n
      have earlier : ∀ id ∈ before, graph.depthWithin? steps id = none ∨
          ∃ depth, graph.depthWithin? steps id = some (.ok depth) := by
        intro id member
        obtain ⟨depth, known⟩ := answered id member
        cases within : graph.depthWithin? steps id with
        | none => exact .inl rfl
        | some answer =>
            cases known.symm.trans (depth?_of_depthWithin? within)
            exact .inr ⟨depth, rfl⟩
      simp only [depthWithin?, found, parted, deepest?_eq_none (ih (n + 1)) earlier]

/-- The search has no answer exactly where the recursion goes on for ever. -/
theorem depth?_eq_none_iff : graph.depth? id = none ↔ graph.Endless id := by
  constructor
  · intro unanswered
    -- A node without a depth has such an input, so a walk that picks it each time never ends.
    choose next descends endless using fun node : { id // graph.depth? id = none } => exists_descends node.2
    let walk (n : Nat) : { id // graph.depth? id = none } :=
      (fun node => ⟨next node, endless node⟩)^[n] ⟨id, unanswered⟩
    refine ⟨fun n => walk n, rfl, ?_⟩
    intro n
    have step : walk (n + 1) = ⟨next (walk n), endless (walk n)⟩ := Function.iterate_succ_apply' ..
    change graph.Descends (walk n) (walk (n + 1))
    rw [step]
    exact descends (walk n)
  · rintro ⟨walk, rfl, walked⟩
    exact depthWithin?_of_endless walked (graph.size + 1) 0

theorem Ordered.exists_returns (ordered : graph.Ordered) (id : NodeId) : ∃ answer, graph.Returns id answer := by
  rcases Nat.lt_or_ge id graph.size with recorded | unrecorded
  · obtain ⟨depth, answered, _⟩ := depth?_longest ordered recorded
    exact ⟨_, depth?_eq_some_iff.mp answered⟩
  · exact ⟨_, .unrecorded (node?_of_size_le unrecorded)⟩

theorem foldl_record (calls : List (Call NodeId)) (graph : Graph) (fits : graph.size ≤ idLimit) :
    (calls.foldl (fun graph call => ((record call).run.run graph).2) graph).nodes.toList =
      (graph.nodes.toList ++ calls).take idLimit := by
  induction calls generalizing graph with
  | nil =>
      rw [List.foldl_nil, List.append_nil, List.take_of_length_le]
      exact fits
  | cons call rest ih =>
      rw [List.foldl_cons, run_record]
      by_cases room : graph.size < idLimit
      · rw [if_pos room, ih _ (by simpa [size] using Nat.succ_le_of_lt room)]
        simp
      · have full : graph.nodes.toList.length = idLimit := Nat.le_antisymm fits (Nat.le_of_not_lt room)
        rw [if_neg room, ih graph fits, List.take_append_of_le_length full.ge, List.take_append_of_le_length full.ge]

theorem toList_recordAll (calls : List (Call NodeId)) : (recordAll calls).nodes.toList = calls.take idLimit := by
  rw [recordAll, foldl_record calls {} (Nat.zero_le _)]
  rfl

theorem node?_recordAll (calls : List (Call NodeId)) (id : NodeId) :
    (recordAll calls).node? id = (calls.take idLimit)[id]? := by
  rw [node?, ← Array.getElem?_toList, toList_recordAll]

/-- Whatever the calls refer to, they are recorded as they are.  The graph is ordered exactly when each call that is
recorded refers to nodes before it, and then the recursion for a depth returns from every node.  In any graph it
returns what the bounded search answers, and it goes on for ever where the search has no answer. -/
theorem recordAll_ordered_iff (calls : List (Call NodeId)) :
    let graph := recordAll calls
    graph.nodes.toList = calls.take UInt32.size ∧
    (graph.Ordered ↔ ∀ id call, id < UInt32.size → calls[id]? = some call → ∀ input ∈ call.inputs, input < id) ∧
    (graph.Ordered → ∀ id, ∃ answer, graph.Returns id answer) ∧
    ∀ id, (∀ answer, graph.depth? id = some answer ↔ graph.Returns id answer) ∧
      (graph.depth? id = none ↔ graph.Endless id) := by
  intro graph
  refine ⟨toList_recordAll calls, ?_, Ordered.exists_returns, fun id => ⟨fun _ => depth?_eq_some_iff,
    depth?_eq_none_iff⟩⟩
  have node (id : NodeId) (call : Call NodeId) :
      graph.node? id = some call ↔ id < UInt32.size ∧ calls[id]? = some call := by
    rw [node?_recordAll, List.getElem?_take]
    change (if id < UInt32.size then _ else _) = _ ↔ _
    split <;> simp_all
  simp only [Ordered, node, and_imp]

/-- A transform of itself is recorded, and the recursion for its depth goes on for ever. -/
theorem not_ordered_of_transform_of_itself :
    let graph := recordAll [.transform (.blur 0) 0]
    graph.node? 0 = some (.transform (.blur 0) 0) ∧ ¬ graph.Ordered ∧ graph.Endless 0 ∧
      ∀ answer, ¬ graph.Returns 0 answer := by
  intro graph
  have found : graph.node? 0 = some (.transform (.blur 0) 0) := rfl
  have unanswered : graph.depth? 0 = none := rfl
  refine ⟨found, ?_, depth?_eq_none_iff.mp unanswered, ?_⟩
  · intro ordered
    exact Nat.lt_irrefl 0 (ordered 0 _ found 0 List.mem_cons_self)
  · intro answer returns
    cases unanswered.symm.trans (depth?_of_returns returns)

end VisualEffects.Graph
