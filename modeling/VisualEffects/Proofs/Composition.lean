import VisualEffects.Proofs.Recovery

namespace VisualEffects

/-! A blend somewhere in a pipeline, seen from the pipeline without it.

Whether the blend may stand there depends on its branch alone, checked as a pipeline of its own under a limit that is
one smaller.  In the graph its branch and itself come between the nodes of the effects before it and those of the
effects after it, which are what they are without the blend, up to the numbers of the nodes.
-/

namespace Shape

/-- The shape of a pipeline that stands under one more blend. -/
def deeper (shape : Shape) : Shape := { shape with maxDepth := shape.maxDepth + 1 }

theorem ofLayers_deeper (head : Layer) (rest : List Layer) :
    ofLayers ((head :: rest).map Layer.deeper) = (ofLayers (head :: rest)).deeper := by
  -- The first layer stands apart: the depth of no layers is 0, and moving them leaves it so.
  induction rest generalizing head with
  | nil => apply ext <;> simp [ofLayers, ofLayer, ofFollowers, source, Layer.deeper, deeper]
  | cons next rest ih =>
      rw [List.map_cons, ofLayers, ih next]
      apply ext <;> simp [ofLayers, ofLayer, ofFollowers, source, Layer.deeper, deeper]

/-- A list that stands under one more blend is checked as before under a limit that is one smaller. -/
theorem ofList_succ {limit depth : Nat} {effects : List Effect} {shape : Shape} :
    ofList (limit + 1) (depth + 1) effects = .ok shape ↔
      ∃ inner, ofList limit depth effects = .ok inner ∧ inner.deeper = shape := by
  have moved : ofLayers (Effect.layers (depth + 1) effects) = (ofLayers (Effect.layers depth effects)).deeper := by
    rw [Effect.layers_succ]
    exact ofLayers_deeper _ _
  simp only [ofList_eq_ok, moved]
  rw [Effect.layers_succ, List.forall_mem_map]
  simp only [Layer.fits_deeper]
  constructor
  · rintro ⟨fits, rfl⟩
    exact ⟨_, ⟨fits, rfl⟩, rfl⟩
  · rintro ⟨_, ⟨fits, rfl⟩, rfl⟩
    exact ⟨fits, rfl⟩

theorem ofRest_position {limit depth index : Nat} (other : Nat) {effects : List Effect} {shape : Shape} :
    ofRest limit depth index effects = .ok shape ↔ ofRest limit depth other effects = .ok shape := by
  -- Positions matter to errors only.
  rw [ofRest_eq_ok, ofRest_eq_ok]

theorem ofRest_append {limit depth index : Nat} {first second : List Effect} {shape : Shape} :
    ofRest limit depth index (first ++ second) = .ok shape ↔
      ∃ earlier, ofRest limit depth index first = .ok earlier ∧
        ∃ later, ofRest limit depth (index + first.length) second = .ok later ∧ earlier + later = shape := by
  induction first generalizing index shape with
  | nil => simp [ofRest]
  | cons effect rest ih =>
      rw [List.cons_append, List.length_cons, Nat.add_comm rest.length, ← Nat.add_assoc]
      simp only [ofRest_cons, ih]
      constructor
      · rintro ⟨here, passed, _, ⟨earlier, before, later, after, rfl⟩, rfl⟩
        exact ⟨_, ⟨here, passed, earlier, before, rfl⟩, later, after, add_assoc here earlier later⟩
      · rintro ⟨_, ⟨here, passed, earlier, before, rfl⟩, later, after, rfl⟩
        exact ⟨here, passed, _, ⟨earlier, before, later, after, rfl⟩, (add_assoc here earlier later).symm⟩

theorem ofList_append {limit depth : Nat} {first second : List Effect} (nonempty : first ≠ []) {shape : Shape} :
    ofList limit depth (first ++ second) = .ok shape ↔
      ∃ earlier, ofList limit depth first = .ok earlier ∧
        ∃ later, ofRest limit depth first.length second = .ok later ∧ earlier + later = shape := by
  cases first with
  | nil => exact absurd rfl nonempty
  | cons start rest =>
      rw [List.cons_append, List.length_cons, Nat.add_comm rest.length]
      simp only [ofList_cons, ofRest_append]
      constructor
      · rintro ⟨shallow, starts, _, ⟨earlier, before, later, after, rfl⟩, rfl⟩
        exact ⟨_, ⟨shallow, starts, earlier, before, rfl⟩, later, after, add_assoc _ earlier later⟩
      · rintro ⟨_, ⟨shallow, starts, earlier, before, rfl⟩, later, after, rfl⟩
        exact ⟨shallow, starts, _, ⟨earlier, before, later, after, rfl⟩, (add_assoc _ earlier later).symm⟩

/-- A blend adds itself and its branch to what is accepted without it. -/
theorem ofList_insert_blend {limit depth : Nat} {chain branch rest : List Effect} (nonempty : chain ≠ [])
    {mode : BlendMode} {placement : Placement} {shape : Shape} :
    ofList limit depth (chain ++ .blend branch mode placement :: rest) = .ok shape ↔
      ∃ outer, ofList limit depth (chain ++ rest) = .ok outer ∧
        ∃ inner, ofList limit (depth + 1) branch = .ok inner ∧ outer + (blend + inner) = shape := by
  simp only [ofList_append nonempty, ofRest_cons, ofTransform_blend]
  constructor
  · rintro ⟨earlier, before, _, ⟨_, ⟨inner, within, rfl⟩, later, after, rfl⟩, rfl⟩
    refine ⟨_, ⟨earlier, before, later, (ofRest_position _).mp after, rfl⟩, inner, within, ?_⟩
    rw [add_assoc earlier, add_comm later]
  · rintro ⟨_, ⟨earlier, before, later, after, rfl⟩, inner, within, rfl⟩
    refine ⟨earlier, before, _, ⟨_, ⟨inner, within, rfl⟩, later, (ofRest_position _).mp after, rfl⟩, ?_⟩
    rw [add_assoc earlier, add_comm later]

end Shape

/-- A pipeline with a blend in it is accepted when it is accepted without the blend, and the branch of the blend is
accepted under a limit that is one smaller. -/
theorem validate_insert_blend {options : CompileOptions} {chain branch rest : List Effect} (nonempty : chain ≠ [])
    {mode : BlendMode} {placement : Placement} {shape : Shape} :
    validate options (chain ++ .blend branch mode placement :: rest) = .ok shape ↔
      1 ≤ options.maxBranchDepth ∧ ∃ outer, validate options (chain ++ rest) = .ok outer ∧
        ∃ inner, validate ⟨options.maxBranchDepth - 1⟩ branch = .ok inner ∧
          outer + (Shape.blend + inner.deeper) = shape := by
  unfold validate
  rw [Shape.ofList_insert_blend nonempty]
  cases options.maxBranchDepth with
  | zero =>
      simp only [Shape.ofList_of_deep Nat.zero_lt_one]
      simp
  | succ limit =>
      simp only [Shape.ofList_succ, Nat.add_sub_cancel]
      constructor
      · rintro ⟨outer, before, _, ⟨inner, within, rfl⟩, rfl⟩
        exact ⟨Nat.succ_pos limit, outer, before, inner, within, rfl⟩
      · rintro ⟨_, outer, before, inner, within, rfl⟩
        exact ⟨outer, before, _, ⟨inner, within, rfl⟩, rfl⟩

/-- A compiled chain with a compiled branch behind it, whose nodes are renumbered, and the blend that joins the two. -/
def CompiledGraph.blend (chain branch : CompiledGraph) (mode : BlendMode) (placement : Placement) : CompiledGraph where
  root := chain.graph.size + branch.graph.size
  graph := chain.graph.append (branch.graph.nodes.toList.map (Call.map (· + chain.graph.size)) ++
    [.blend mode placement chain.root (branch.root + chain.graph.size)])

theorem CompiledGraph.size_blend (chain branch : CompiledGraph) (mode : BlendMode) (placement : Placement) :
    (chain.blend branch mode placement).graph.size = chain.graph.size + branch.graph.size + 1 := by
  rw [blend, Graph.size_append, List.length_append, List.length_map, Graph.length_nodes, Nat.add_assoc]
  rfl

theorem CompiledGraph.node?_blend_append {chain : CompiledGraph} {id : NodeId} (recorded : id < chain.graph.size)
    (branch : CompiledGraph) (mode : BlendMode) (placement : Placement) (calls : List (Call NodeId)) :
    ((chain.blend branch mode placement).graph.append calls).node? id = chain.graph.node? id := by
  have grows : chain.graph.size ≤ (chain.blend branch mode placement).graph.size := by
    rw [size_blend]
    omega
  rw [Graph.node?_append_of_lt (Nat.lt_of_lt_of_le recorded grows), blend, Graph.node?_append_of_lt recorded]

namespace CompiledGraph.Links

variable {start within plain : CompiledGraph} {program branch rest : List Operation}

/-- The calls of a branch are linked behind those of a chain, and before the blend that takes the nodes of both. -/
theorem blend (links : start.Links program) (branchLinks : within.Links branch) (mode : BlendMode)
    (placement : Placement) :
    (start.blend within mode placement).Links (program ++ (branch ++ [.blend mode placement])) := by
  -- A program never looks below what it puts on the stack, so the branch can run above the last node of the chain.
  have moved := (Linked.shift branchLinks start.graph.size).above [start.root]
  unfold Links
  rw [CompiledGraph.blend, Graph.append_nodes]
  refine Linked.append links (moved.append (.cons rfl ?_))
  rw [List.length_map, Graph.length_nodes, Nat.zero_add]
  exact .nil

/-- What is linked on the last node of a chain can be linked on the blend instead, with numbers that are moved up by
the nodes between the two. -/
theorem resume (links : start.Links program) (plainLinks : plain.Links (program ++ rest)) :
    ∃ added, plain.graph = start.graph.append added ∧ ∀ within mode placement,
      Linked (start.blend within mode placement).graph.size [(start.blend within mode placement).root] rest
        (added.map (Call.map (· + (within.graph.size + 1)))) [plain.root + (within.graph.size + 1)] := by
  obtain ⟨first, added, middle, nodes, before, after⟩ := Linked.split plainLinks
  -- The calls of the chain are the same in both graphs, as there is one way to link a program.
  obtain ⟨rfl, rfl⟩ := before.unique links
  refine ⟨added, Graph.eq_append_of_nodes nodes, ?_⟩
  intro within mode placement
  have newest : start.root + 1 = 0 + start.graph.size := (Linked.isTree links).newest
  have top : start.root + (within.graph.size + 1) = (start.blend within mode placement).root := by
    rw [Nat.add_comm within.graph.size, ← Nat.add_assoc, newest, Nat.zero_add]
    rfl
  have moved := after.shift (within.graph.size + 1)
  rwa [List.map_singleton, List.map_singleton, top, Graph.length_nodes, Nat.zero_add, ← Nat.add_assoc,
    ← size_blend start within mode placement] at moved

end CompiledGraph.Links

/-- What follows a node is recorded as its program is linked on that node. -/
theorem run_extend_record {limit depth index : Nat} {effects : List Effect} {shape : Shape}
    (accepted : Shape.ofRest limit depth index effects = .ok shape) {graph : Graph} {chain root : NodeId}
    {calls : List (Call NodeId)} (linked : Linked graph.size [chain] (Effect.program effects) calls [root])
    (room : graph.size + (Effect.program effects).length ≤ Graph.idLimit) :
    (extend Graph.record index chain effects).run.run graph = (.ok root, graph.append calls) := by
  have executed := linked.execute_record rfl room
  have extended := execute_extend Graph.record effects accepted chain [] []
  rw [List.append_nil] at extended
  rw [extended, run_refusing_bind] at executed
  generalize (extend Graph.record index chain effects).run.run graph = outcome at executed ⊢
  obtain ⟨error | node, after⟩ := outcome
  · cases executed
  · cases executed
    rfl

theorem program_insert_blend (chain branch rest : List Effect) (mode : BlendMode) (placement : Placement) :
    Effect.program (chain ++ .blend branch mode placement :: rest) =
      Effect.program chain ++ (Effect.program branch ++ [.blend mode placement]) ++ Effect.program rest := by
  rw [Effect.program_append, Effect.program, Effect.operations, ← List.append_assoc]
  rfl

theorem exists_compileGraph_links {options : CompileOptions} {effects : List Effect} {shape : Shape}
    (accepted : validate options effects = .ok shape) (room : (Effect.program effects).length ≤ Graph.idLimit) :
    ∃ compiled, compileGraph options effects = .ok compiled ∧ compiled.Links (Effect.program effects) := by
  rw [Effect.length_program accepted] at room
  obtain ⟨compiled, compiles⟩ := (exists_compileGraph_iff accepted).mpr room
  exact ⟨compiled, compiles, ((compileGraph_eq_ok accepted).mp compiles).2⟩

/-- The calls that a pipeline with a blend in it makes are those of its parts, and linked calls are the only ones of
their program: so what the parts record, put together, is what the pipeline records. -/
theorem compileGraph_insert_blend {options : CompileOptions} {chain branch rest : List Effect} (nonempty : chain ≠ [])
    {mode : BlendMode} {placement : Placement} {compiled : CompiledGraph}
    (compiles : compileGraph options (chain ++ .blend branch mode placement :: rest) = .ok compiled) :
    ∃ start within plain : CompiledGraph, ∃ added,
      compileGraph options chain = .ok start ∧
      compileGraph ⟨options.maxBranchDepth - 1⟩ branch = .ok within ∧
      compileGraph options (chain ++ rest) = .ok plain ∧ plain.graph = start.graph.append added ∧
      compiled.graph = (start.blend within mode placement).graph.append
        (added.map (Call.map (· + (within.graph.size + 1)))) ∧
      compiled.root = plain.root + (within.graph.size + 1) ∧
      (extend Graph.record (chain.length + 1) (start.blend within mode placement).root rest).run.run
        (start.blend within mode placement).graph = (.ok compiled.root, compiled.graph) := by
  obtain ⟨shape, accepted⟩ := exists_validate_of_compileGraph compiles
  obtain ⟨room, links⟩ := (compileGraph_eq_ok accepted).mp compiles
  obtain ⟨_, outer, plainAccepted, inner, branchAccepted, _⟩ := (validate_insert_blend nonempty).mp accepted
  obtain ⟨first, chainAccepted, later, restAccepted, _⟩ := (Shape.ofList_append nonempty).mp plainAccepted
  -- No part makes more calls than the whole, so there are identifiers for each part on its own.
  have size : (Effect.program chain).length + ((Effect.program branch).length + 1) + (Effect.program rest).length ≤
      Graph.idLimit := by
    rw [program_insert_blend] at room
    simpa only [List.length_append, List.length_singleton] using room
  have plainSize : (Effect.program (chain ++ rest)).length ≤ Graph.idLimit := by
    rw [Effect.program_append, List.length_append]
    omega
  obtain ⟨start, startCompiles, startLinks⟩ := exists_compileGraph_links chainAccepted (by omega)
  obtain ⟨within, withinCompiles, withinLinks⟩ := exists_compileGraph_links branchAccepted (by omega)
  obtain ⟨plain, plainCompiles, plainLinks⟩ := exists_compileGraph_links plainAccepted plainSize
  rw [Effect.program_append] at plainLinks
  obtain ⟨added, appended, resumed⟩ := startLinks.resume plainLinks
  have joined := startLinks.blend withinLinks mode placement
  have whole := joined.append (resumed within mode placement)
  rw [program_insert_blend] at links
  cases links.unique whole
  refine ⟨start, within, plain, added, startCompiles, withinCompiles, plainCompiles, appended, rfl, rfl, ?_⟩
  refine run_extend_record ((Shape.ofRest_position _).mp restAccepted) (resumed within mode placement) ?_
  rw [joined.size]
  simpa only [List.length_append, List.length_singleton] using size

/-- A blend may stand behind some effects of a pipeline exactly when the pipeline is accepted without it and its branch
is accepted on its own under a limit that is one smaller.  It adds itself and its branch, one blend deeper, to the
shape.  The graph starts with that of the effects before the blend; after it come the nodes of the branch on its own,
numbered from there on, the blend of the last nodes of the two, and what the effects after the blend record on top of
it: the nodes they record without the blend, with higher numbers.  Whatever the branch is, the nodes before it are
the same. -/
theorem insert_blend_composes (options : CompileOptions) {chain : List Effect} (nonempty : chain ≠ [])
    (branch rest : List Effect) (mode : BlendMode) (placement : Placement) :
    let whole := chain ++ .blend branch mode placement :: rest
    let inner : CompileOptions := ⟨options.maxBranchDepth - 1⟩
    ((∃ shape, validate options whole = .ok shape) ↔
      (∃ shape, validate options (chain ++ rest) = .ok shape) ∧ 1 ≤ options.maxBranchDepth ∧
        ∃ shape, validate inner branch = .ok shape) ∧
    (∀ shape, validate options whole = .ok shape →
      (∃ outer within, validate options (chain ++ rest) = .ok outer ∧ validate inner branch = .ok within ∧
        shape = ⟨outer.sources + within.sources, outer.transforms + within.transforms + 1,
          outer.blends + within.blends + 1, max outer.maxDepth (within.maxDepth + 1)⟩) ∧
      ((∃ compiled, compileGraph options whole = .ok compiled) ↔
        shape.sources + shape.transforms ≤ Graph.idLimit)) ∧
    ∀ compiled, compileGraph options whole = .ok compiled →
      ∃ start within plain : CompiledGraph, ∃ added,
        compileGraph options chain = .ok start ∧ compileGraph inner branch = .ok within ∧
        compileGraph options (chain ++ rest) = .ok plain ∧ plain.graph = start.graph.append added ∧
        (let size := start.graph.size
         let joined := start.graph.append (within.graph.nodes.toList.map (Call.map (· + size)) ++
           [.blend mode placement start.root (within.root + size)])
         compiled.graph = joined.append (added.map (Call.map (· + (within.graph.size + 1)))) ∧
         compiled.root = plain.root + (within.graph.size + 1) ∧
         (extend Graph.record (chain.length + 1) (size + within.graph.size) rest).run.run joined =
           (.ok compiled.root, compiled.graph)) ∧
        ∀ other otherCompiled,
          compileGraph options (chain ++ .blend other mode placement :: rest) = .ok otherCompiled →
          ∀ id < start.graph.size, otherCompiled.graph.node? id = compiled.graph.node? id := by
  intro whole inner
  refine ⟨?_, ?_, ?_⟩
  · simp only [whole, inner, validate_insert_blend nonempty]
    constructor
    · rintro ⟨_, positive, outer, before, within, branchAccepted, rfl⟩
      exact ⟨⟨outer, before⟩, positive, within, branchAccepted⟩
    · rintro ⟨⟨outer, before⟩, positive, within, branchAccepted⟩
      exact ⟨_, positive, outer, before, within, branchAccepted, rfl⟩
  · intro shape accepted
    obtain ⟨_, outer, before, within, branchAccepted, rfl⟩ := (validate_insert_blend nonempty).mp accepted
    refine ⟨⟨outer, within, before, branchAccepted, ?_⟩, ?_⟩
    · apply Shape.ext <;> simp [Shape.blend, Shape.deeper] <;> omega
    · rw [effects_of_validate accepted]
      exact exists_compileGraph_iff accepted
  · intro compiled compiles
    obtain ⟨start, within, plain, added, startCompiles, withinCompiles, plainCompiles, appended, graph, root,
      extended⟩ := compileGraph_insert_blend nonempty compiles
    refine ⟨start, within, plain, added, startCompiles, withinCompiles, plainCompiles, appended,
      ⟨graph, root, extended⟩, ?_⟩
    intro other otherCompiled otherCompiles id before
    obtain ⟨again, otherWithin, _, otherAdded, againCompiles, _, _, _, otherGraph, _⟩ :=
      compileGraph_insert_blend nonempty otherCompiles
    cases startCompiles.symm.trans againCompiles
    rw [graph, otherGraph, CompiledGraph.node?_blend_append before, CompiledGraph.node?_blend_append before]

/-- With the limit 1 there is no room for a branch that holds a blend.  With the limit 2 the effects before it are
recorded as the nodes 0 and 1, whichever branch is accepted in its place. -/
theorem insert_blend_composes_of_nested_branch :
    let chain : List Effect := [.backdrop .window, .luminance]
    let branch : List Effect := [.backdrop .host, .blend [.solidColor ⟨1, 2, 3, 4⟩] .screen .background]
    let whole (branch : List Effect) : List Effect := chain ++ .blend branch .multiply .foreground :: [.luminance]
    chain ≠ [] ∧ (¬∃ shape, validate ⟨1⟩ (whole branch) = .ok shape) ∧
      ∃ compiled, compileGraph ⟨2⟩ (whole branch) = .ok compiled ∧
        ∀ other otherCompiled, compileGraph ⟨2⟩ (whole other) = .ok otherCompiled →
          ∀ id < 2, otherCompiled.graph.node? id = compiled.graph.node? id := by
  intro chain branch whole
  have nonempty : chain ≠ [] := nofun
  have shallow := (insert_blend_composes ⟨1⟩ nonempty branch [.luminance] .multiply .foreground).1
  have deep := (insert_blend_composes ⟨2⟩ nonempty branch [.luminance] .multiply .foreground).2
  refine ⟨nonempty, ?_, ?_⟩
  · intro accepted
    obtain ⟨_, _, shape, within⟩ := shallow.mp accepted
    cases within
  · obtain ⟨compiled, compiles⟩ := (deep.1 ⟨3, 4, 2, 2⟩ rfl).2.mpr (by decide)
    obtain ⟨start, _, _, _, started, _, _, _, _, kept⟩ := deep.2 compiled compiles
    cases started
    exact ⟨compiled, compiles, kept⟩

end VisualEffects
