import VisualEffects.Proofs.Recording

namespace VisualEffects

/-! The depth of a compiled pipeline.

How deep a compiled pipeline lies in its graph can be told from its effects: a source lies at depth 1, a transform one
deeper than what comes before it, and a blend one deeper than the deeper of its chain and its branch.  The graph is
searched along inputs, and the effects that can be read back from a node say what the search finds, whatever else the
graph holds.
-/

namespace Effect

mutual
/-- The depth after one more effect, when what comes before it reaches down `before` nodes. -/
def depthAfter (before : Nat) : Effect → Nat
  | .blend branch _ _ => max before (depthOver 0 branch) + 1
  | _ => before + 1

/-- The depth after some more effects. -/
def depthOver : Nat → List Effect → Nat
  | before, [] => before
  | before, effect :: rest => depthOver (depthAfter before effect) rest
end

/-- The number of nodes on the longest way from the node of a list of effects down to a source. -/
def depth (effects : List Effect) : Nat := depthOver 0 effects

theorem depthOver_append (before : Nat) (first second : List Effect) :
    depthOver before (first ++ second) = depthOver (depthOver before first) second := by
  induction first generalizing before with
  | nil => rfl
  | cons effect rest ih => exact ih (depthAfter before effect)

theorem depthAfter_single {effect : Effect} (single : effect.isBlend = false) (before : Nat) :
    depthAfter before effect = before + 1 := by
  cases effect <;> first | rfl | simp [isBlend, kind] at single

theorem depth_single {source : Effect} (single : source.isBlend = false) : depth [source] = 1 :=
  depthAfter_single single 0

theorem depth_append_single (effects : List Effect) {effect : Effect} (single : effect.isBlend = false) :
    depth (effects ++ [effect]) = depth effects + 1 := by
  rw [depth, depthOver_append]
  exact depthAfter_single single _

theorem depth_append_blend (effects branch : List Effect) (mode : BlendMode) (placement : Placement) :
    depth (effects ++ [.blend branch mode placement]) = max (depth effects) (depth branch) + 1 := by
  rw [depth, depthOver_append]
  rfl

mutual
theorem depthAfter_forgetHostBlur (before : Nat) (effect : Effect) :
    depthAfter before effect.forgetHostBlur = depthAfter before effect := by
  cases effect with
  | blend branch mode placement =>
      rw [forgetHostBlur, depthAfter, depthAfter, depthOver_forgetHostBlurs 0 branch]
  | acrylic source => cases source <;> rfl
  | _ => rfl

theorem depthOver_forgetHostBlurs (before : Nat) (effects : List Effect) :
    depthOver before (forgetHostBlurs effects) = depthOver before effects := by
  cases effects with
  | nil => rfl
  | cons effect rest =>
      rw [forgetHostBlurs, depthOver, depthOver, depthAfter_forgetHostBlur before effect,
        depthOver_forgetHostBlurs _ rest]
end

theorem succ_le_depthAfter (before : Nat) (effect : Effect) : before + 1 ≤ depthAfter before effect := by
  cases effect with
  | blend branch => exact Nat.succ_le_succ (Nat.le_max_left _ _)
  | _ => exact Nat.le_refl _

theorem add_length_le_depthOver (before : Nat) (effects : List Effect) :
    before + effects.length ≤ depthOver before effects := by
  induction effects generalizing before with
  | nil => exact Nat.le_refl before
  | cons effect rest ih =>
      have here := succ_le_depthAfter before effect
      have others := ih (depthAfter before effect)
      rw [depthOver, List.length_cons]
      omega

mutual
theorem depthAfter_le (level before : Nat) (effect : Effect) :
    depthAfter before effect ≤ before + 1 + ((layersOf level effect).flatMap Layer.effects).length := by
  cases effect with
  | blend branch mode placement =>
      have inner := depthOver_le (level + 1) 0 branch
      rw [depthAfter, layersOf, List.flatMap_cons, List.length_append]
      dsimp only
      omega
  | _ => exact Nat.le_add_right _ _

/-- A way down passes every effect of the tree once at most. -/
theorem depthOver_le (level before : Nat) (effects : List Effect) :
    depthOver before effects ≤
      before + effects.length + ((layersUnder level effects).flatMap Layer.effects).length := by
  cases effects with
  | nil => exact Nat.le_refl before
  | cons effect rest =>
      have here := depthAfter_le level before effect
      have others := depthOver_le level (depthAfter before effect) rest
      rw [depthOver, layersUnder, List.flatMap_append, List.length_append, List.length_cons]
      omega
end

mutual
theorem lt_depthAfter {level : Nat} (before : Nat) {effect : Effect} {layer : Layer}
    (member : layer ∈ layersOf level effect) (nonempty : layer.effects ≠ []) :
    layer.depth < level + depthAfter before effect := by
  cases effect with
  | blend branch mode placement =>
      rw [layersOf] at member
      rw [depthAfter]
      rcases List.mem_cons.mp member with rfl | deeper
      · have long := add_length_le_depthOver 0 branch
        have positive : 0 < branch.length := List.length_pos_iff.mpr nonempty
        dsimp only
        omega
      · have inner := lt_depthOver 0 deeper nonempty
        omega
  | _ => cases member

/-- Each blend around a list is one more node on the way down from it. -/
theorem lt_depthOver {level : Nat} (before : Nat) {effects : List Effect} {layer : Layer}
    (member : layer ∈ layersUnder level effects) (nonempty : layer.effects ≠ []) :
    layer.depth < level + depthOver before effects := by
  cases effects with
  | nil => cases member
  | cons effect rest =>
      rw [layersUnder] at member
      rw [depthOver]
      rcases List.mem_append.mp member with here | later
      · have above := lt_depthAfter before here nonempty
        have grows := add_length_le_depthOver (depthAfter before effect) rest
        omega
      · exact lt_depthOver (depthAfter before effect) later nonempty
end

theorem depth_le_everywhere (effects : List Effect) : depth effects ≤ (everywhere effects).length := by
  have bound := depthOver_le 0 0 effects
  rw [Nat.zero_add, ← List.length_append] at bound
  exact bound

theorem lt_depth_of_mem_layers {effects : List Effect} {layer : Layer} (member : layer ∈ layers 0 effects)
    (nonempty : layer.effects ≠ []) : layer.depth < depth effects := by
  rcases List.mem_cons.mp member with rfl | deeper
  · have long := add_length_le_depthOver 0 effects
    have positive : 0 < effects.length := List.length_pos_iff.mpr nonempty
    exact Nat.lt_of_lt_of_le positive (by rwa [Nat.zero_add] at long)
  · have below := lt_depthOver 0 deeper nonempty
    rwa [Nat.zero_add] at below

end Effect

theorem Layer.WellFormed.nonempty {layer : Layer} (formed : layer.WellFormed) : layer.effects ≠ [] := by
  obtain ⟨first, rest, same, _⟩ := formed
  exact same ▸ List.cons_ne_nil first rest

theorem maxDepth_lt_depth {options : CompileOptions} {effects : List Effect} {shape : Shape}
    (accepted : validate options effects = .ok shape) : shape.maxDepth < Effect.depth effects := by
  obtain ⟨deepest, member, fits, depth⟩ := exists_layer_at_maxDepth accepted
  exact depth ▸ Effect.lt_depth_of_mem_layers member fits.1.nonempty

namespace Graph

theorem isBlend_effect_source (call : Source) : call.effect.isBlend = false := by
  cases call <;> rfl

theorem isBlend_effect_transform (step : Transform) : step.effect.isBlend = false := by
  cases step <;> rfl

/-- What can be read back from a node says how deep it lies, wherever it lies in the graph. -/
theorem depthWithin?_of_reads {graph : Graph} {id : NodeId} {effects : List Effect} (reads : graph.Reads id effects)
    {steps : Nat} (enough : Effect.depth effects ≤ steps) :
    graph.depthWithin? steps id = some (.ok (Effect.depth effects)) := by
  -- The induction is on the reading, which asks nothing of the nodes that are not below this one.
  induction reads generalizing steps with
  | @source id call found =>
      rw [Effect.depth_single (isBlend_effect_source call)] at enough ⊢
      obtain ⟨fewer, rfl⟩ := Nat.exists_eq_add_one_of_ne_zero (Nat.ne_of_gt enough)
      simp only [depthWithin?, found, Call.inputs, deepest?]
  | @transform id step chain effects found _ ih =>
      rw [Effect.depth_append_single effects (isBlend_effect_transform step)] at enough ⊢
      obtain ⟨fewer, rfl⟩ := Nat.exists_eq_add_one_of_ne_zero (Nat.ne_zero_of_lt enough)
      have earlier := ih (Nat.le_of_succ_le_succ enough)
      simp only [depthWithin?, found, Call.inputs, deepest?, earlier, Nat.max_zero]
  | @blend id mode placement chain branch effects branchEffects found _ _ ih branchIH =>
      rw [Effect.depth_append_blend] at enough ⊢
      obtain ⟨fewer, rfl⟩ := Nat.exists_eq_add_one_of_ne_zero (Nat.ne_zero_of_lt enough)
      have deeper := Nat.max_le.mp (Nat.le_of_succ_le_succ enough)
      simp only [depthWithin?, found, Call.inputs, deepest?, ih deeper.1, branchIH deeper.2, Nat.max_zero]

end Graph

/-- However many nodes were recorded before, an accepted pipeline is compiled to a node that lies as deep as its effects
say, if there are identifiers for them: the search along inputs finds this depth as soon as it may take that many
steps.  It is more than the number of blends around any list of the pipeline, and no more than the number of its
effects. -/
theorem depth?_compile {options : CompileOptions} {effects : List Effect} {shape : Shape}
    (accepted : validate options effects = .ok shape) (graph : Graph) :
    (graph.size + (shape.sources + shape.transforms) ≤ Graph.idLimit →
      ∃ root after, (compile options Graph.record effects).run.run graph = (.ok root, after)) ∧
    ∀ root after, (compile options Graph.record effects).run.run graph = (.ok root, after) →
      after.depth? root = some (.ok (Effect.depth effects)) ∧
      (∀ steps, Effect.depth effects ≤ steps →
        after.depthWithin? steps root = some (.ok (Effect.depth effects))) ∧
      shape.maxDepth + 1 ≤ Effect.depth effects ∧
      Effect.depth effects ≤ shape.sources + shape.transforms := by
  have total := effects_of_validate accepted
  have recorded := compile_record accepted graph
  have built := build_built Graph.record_keeps graph effects
  rw [← compile_of_accepted accepted] at built
  refine ⟨?_, ?_⟩
  · intro room
    rw [total] at room
    obtain ⟨calls, root, _, _, compiled⟩ | ⟨_, overflow, _⟩ := recorded
    · exact ⟨root, _, compiled⟩
    · exact absurd overflow (Nat.not_lt.mpr room)
  · intro root after compiled
    rw [compiled] at recorded built
    have found : ∀ steps, Effect.depth effects ≤ steps →
        after.depthWithin? steps root = some (.ok (Effect.depth effects)) := by
      intro steps enough
      -- A graph keeps no blur of a host's acrylic, so other effects may be read back, but equally deep ones.
      have same : Effect.depth (Effect.forgetHostBlurs effects) = Effect.depth effects :=
        Effect.depthOver_forgetHostBlurs 0 effects
      rw [← same] at enough ⊢
      exact Graph.depthWithin?_of_reads (built.2 root rfl) enough
    have shallow := Effect.depth_le_everywhere effects
    refine ⟨found _ ?_, found, maxDepth_lt_depth accepted, by rwa [total]⟩
    obtain ⟨calls, _, linked, _, same⟩ | ⟨_, _, failed⟩ := recorded
    · cases same
      rw [Graph.size_append, linked.length, Effect.length_program accepted]
      omega
    · cases failed

/-- A node that refers to itself has no depth.  It is no input of what is compiled after it. -/
theorem depth?_compile_behind_loop :
    let graph : Graph := ⟨#[.transform .luminanceToAlpha 0]⟩
    let branch : List Effect := [.backdrop .window, .blend [.backdrop .host] .screen .background, .luminance]
    let effects : List Effect := [.backdrop .host, .blend branch .multiply .foreground, .luminance]
    validate {} effects = .ok ⟨3, 4, 2, 2⟩ ∧ graph.depth? 0 = none ∧
      ∃ root after, (compile {} Graph.record effects).run.run graph = (.ok root, after) ∧
        after.depth? root = some (.ok 5) := by
  intro graph branch effects
  have accepted : validate {} effects = .ok ⟨3, 4, 2, 2⟩ := rfl
  have deep := depth?_compile accepted graph
  obtain ⟨root, after, compiled⟩ := deep.1 (by decide)
  exact ⟨accepted, rfl, root, after, compiled, (deep.2 root after compiled).1⟩

end VisualEffects
