import Mathlib.Algebra.Ring.Nat
import VisualEffects.Proofs.Recovery

namespace VisualEffects

/-! What a compiled graph counts.

Checking a pipeline counts its effects while it walks down the tree, and compiling it makes the calls that the graph
counts afterwards, by their names.  Both go over the same tree: a graph holds one call for each effect of it, in the
order in which a branch comes before its blend, so the counts of the one are sums of the counts of the other.
-/

namespace Effect

/-- The name of the call that an effect stands for, if there is one. -/
def callName? : Effect → Option String
  | .backdrop .window => some "backdrop"
  | .backdrop .host => some "host_backdrop"
  | .backdrop .unknown => none
  | .solidColor _ => some "solid_color"
  | .image _ _ _ => some "image"
  | .tile _ _ _ => some "tiles"
  | .acrylic .window _ _ _ _ => some "backdrop_acrylic"
  | .acrylic .host _ _ _ _ => some "host_backdrop_acrylic"
  | .acrylic .unknown _ _ _ _ => none
  | .opacity _ => some "opacity"
  | .luminance => some "luminance_to_alpha"
  | .tint _ _ => some "tint"
  | .blur _ => some "blur"
  | .saturation _ => some "saturation"
  | .blend _ _ _ => some "blend"

def sourceNames : List String :=
  ["backdrop", "host_backdrop", "solid_color", "image", "tiles", "backdrop_acrylic", "host_backdrop_acrylic"]

def transformNames : List String := ["opacity", "luminance_to_alpha", "tint", "blur", "saturation", "blend"]

mutual
/-- The effects of a branch, and then the blend that it belongs to. -/
def branchFirst : Effect → List Effect
  | .blend branch mode placement => postorder branch ++ [.blend branch mode placement]
  | effect => [effect]

/-- The effects of a tree, those of a branch before its blend. -/
def postorder : List Effect → List Effect
  | [] => []
  | effect :: rest => branchFirst effect ++ postorder rest
end

theorem name_operation (effect : Effect) : effect.operation?.map Operation.name = effect.callName? := by
  cases effect with
  | backdrop source => cases source <;> rfl
  | acrylic source => cases source <;> rfl
  | _ => rfl

mutual
theorem operations_eq_branchFirst (effect : Effect) :
    effect.operations = effect.branchFirst.filterMap operation? := by
  cases effect with
  | blend branch mode placement =>
      rw [operations, branchFirst, program_eq_postorder branch, List.filterMap_append]
      rfl
  | _ => simp only [operations, branchFirst, filterMap_operation_cons, List.filterMap_nil, List.append_nil]

/-- A program holds the operations of its tree in postorder. -/
theorem program_eq_postorder (effects : List Effect) : program effects = (postorder effects).filterMap operation? := by
  cases effects with
  | nil => rfl
  | cons effect rest =>
      rw [program, postorder, operations_eq_branchFirst effect, program_eq_postorder rest, List.filterMap_append]
end

theorem map_name_filterMap (effects : List Effect) :
    (effects.filterMap operation?).map Operation.name = effects.filterMap callName? := by
  rw [List.map_filterMap, funext name_operation]

theorem mem_names_of_callName {effect : Effect} {name : String} (called : effect.callName? = some name) :
    name ∈ if effect.isSource then sourceNames else transformNames := by
  cases effect with
  | backdrop source => cases source <;> cases called <;> decide
  | acrylic source => cases source <;> cases called <;> simp [isSource, kind, Kind.isSource, sourceNames]
  | _ => cases called; simp [isSource, kind, Kind.isSource, sourceNames, transformNames]

theorem not_mem_transformNames {name : String} (source : name ∈ sourceNames) : name ∉ transformNames := by
  revert name
  decide

theorem mem_sourceNames_iff {effect : Effect} {name : String} (called : effect.callName? = some name) :
    name ∈ sourceNames ↔ effect.isSource = true := by
  have member := mem_names_of_callName called
  cases kind : effect.isSource with
  | true => simpa [kind] using member
  | false =>
      rw [kind] at member
      exact iff_of_false (fun source => not_mem_transformNames source member) nofun

theorem mem_transformNames_iff {effect : Effect} {name : String} (called : effect.callName? = some name) :
    name ∈ transformNames ↔ (!effect.isSource) = true := by
  have member := mem_names_of_callName called
  cases kind : effect.isSource with
  | true =>
      rw [kind] at member
      exact iff_of_false (not_mem_transformNames member) nofun
  | false => simpa [kind] using member

theorem callName_eq_blend_iff (effect : Effect) : effect.callName? = some "blend" ↔ effect.isBlend = true := by
  cases effect with
  | backdrop source => cases source <;> decide
  | acrylic source => cases source <;> simp [callName?, isBlend, kind]
  | _ => simp [callName?, isBlend, kind]

end Effect

theorem countP_mem_cons {name : String} {others : List String} (fresh : name ∉ others) (calls : List String) :
    calls.countP (· ∈ name :: others) = calls.count name + calls.countP (· ∈ others) := by
  induction calls with
  | nil => rfl
  | cons call rest ih =>
      rw [List.countP_cons, List.countP_cons, List.count_cons, ih]
      by_cases same : call = name
      · subst same
        simp [fresh]
        omega
      · simp [same]
        omega

/-- The counts of different names in a list add up to the number of its members that have one of them. -/
theorem sum_count_names {names : List String} (distinct : names.Nodup) (calls : List String) :
    (names.map calls.count).sum = calls.countP (· ∈ names) := by
  induction names with
  | nil => simp
  | cons name others ih =>
      obtain ⟨fresh, distinctOthers⟩ := List.nodup_cons.mp distinct
      rw [List.map_cons, List.sum_cons, ih distinctOthers, countP_mem_cons fresh]

theorem Graph.count_eq_count_calls (graph : Graph) (name : String) : graph.count name = graph.calls.count name := by
  rw [Graph.count, Graph.calls, List.count, List.countP_map]
  rfl

section
variable {effects : List Effect} {compiled : CompiledGraph}

theorem CompiledGraph.Links.calls (links : compiled.Links (Effect.program effects)) :
    compiled.graph.calls = (Effect.program effects).map Operation.name := by
  rw [← Linked.operations links, List.map_map]
  rfl

theorem CompiledGraph.Links.calls_perm (links : compiled.Links (Effect.program effects)) :
    compiled.graph.calls.Perm ((Effect.everywhere effects).filterMap Effect.callName?) := by
  rw [links.calls, ← Effect.map_name_filterMap]
  exact (Effect.operations_everywhere_perm effects).map Operation.name

end

theorem Layer.countP_isSource {layers : List Layer} (wellFormed : ∀ layer ∈ layers, layer.WellFormed) :
    (layers.flatMap Layer.effects).countP Effect.isSource = layers.length := by
  induction layers with
  | nil => rfl
  | cons layer rest ih =>
      obtain ⟨⟨first, others, effects, started, followers⟩, restFormed⟩ := List.forall_mem_cons.mp wellFormed
      -- A list that is well formed has one source, and it stands first.
      have none : others.countP Effect.isSource = 0 := by
        rw [List.countP_eq_zero]
        exact fun effect member => by simp [followers effect member]
      rw [List.flatMap_cons, List.countP_append, effects, List.countP_cons_of_pos started.1, none, ih restFormed,
        List.length_cons, Nat.zero_add, Nat.add_comm]

section
variable {options : CompileOptions} {effects : List Effect} {shape : Shape} {compiled : CompiledGraph}

theorem exists_callName_of_accepted (accepted : validate options effects = .ok shape) {effect : Effect}
    (member : effect ∈ Effect.everywhere effects) : ∃ name, effect.callName? = some name := by
  obtain ⟨operation, found⟩ := Option.isSome_iff_exists.mp (Effect.isSome_operation_of_accepted accepted member)
  exact ⟨operation.name, by rw [← Effect.name_operation, found]; rfl⟩

/-- Calls with some names are the effects in the tree that stand for one of them. -/
theorem sum_count_calls (accepted : validate options effects = .ok shape)
    (links : compiled.Links (Effect.program effects)) {names : List String} (distinct : names.Nodup)
    (holds : Effect → Bool)
    (named : ∀ effect name, effect.callName? = some name → (name ∈ names ↔ holds effect = true)) :
    (names.map compiled.graph.count).sum = (Effect.everywhere effects).countP holds := by
  rw [funext compiled.graph.count_eq_count_calls, sum_count_names distinct, links.calls_perm.countP_eq,
    List.countP_filterMap]
  apply List.countP_congr
  intro effect member
  -- Each effect of the tree has a name, so none is left out of the calls.
  obtain ⟨name, called⟩ := exists_callName_of_accepted accepted member
  simp [called, named effect name called]

theorem countP_isSource_of_accepted (accepted : validate options effects = .ok shape) :
    (Effect.everywhere effects).countP Effect.isSource = shape.sources := by
  rw [← (validate_eq_ok.mp accepted).2, Shape.sources_ofLayers]
  exact Layer.countP_isSource (wellFormed_of_validate accepted)

theorem countP_not_isSource_of_accepted (accepted : validate options effects = .ok shape) :
    (Effect.everywhere effects).countP (!·.isSource) = shape.transforms := by
  have parts : (Effect.everywhere effects).length =
      (Effect.everywhere effects).countP Effect.isSource + (Effect.everywhere effects).countP (!·.isSource) := by
    simpa using List.length_eq_countP_add_countP Effect.isSource
  rw [← effects_of_validate accepted, countP_isSource_of_accepted accepted] at parts
  exact (Nat.add_left_cancel parts).symm

theorem countP_isBlend_of_accepted (accepted : validate options effects = .ok shape) :
    (Effect.everywhere effects).countP Effect.isBlend = shape.blends := by
  rw [← (validate_eq_ok.mp accepted).2]
  exact (Shape.blends_ofLayers (wellFormed_of_validate accepted)).symm

end

/-- The graph of an accepted pipeline holds a call for each effect of its tree, and no other call: by name there are as
many as effects that stand for it, a branch comes before its blend, and what the shape counts are the sources among
them, the others, and the blends. -/
theorem count_compileGraph {options : CompileOptions} {effects : List Effect} {shape : Shape}
    (accepted : validate options effects = .ok shape) :
    ((∃ compiled, compileGraph options effects = .ok compiled) ↔
      shape.sources + shape.transforms ≤ Graph.idLimit) ∧
    ∀ compiled, compileGraph options effects = .ok compiled →
      (∀ name, compiled.graph.count name = (Effect.everywhere effects).countP (·.callName? == some name)) ∧
      (Effect.sourceNames.map compiled.graph.count).sum = shape.sources ∧
      (Effect.transformNames.map compiled.graph.count).sum = shape.transforms ∧
      compiled.graph.count "blend" = shape.blends ∧
      compiled.graph.size = shape.sources + shape.transforms ∧
      compiled.graph.calls = (Effect.postorder effects).filterMap Effect.callName? := by
  have total := effects_of_validate accepted
  refine ⟨?_, ?_⟩
  · rw [total]
    exact exists_compileGraph_iff accepted
  intro compiled compiles
  have links := ((compileGraph_eq_ok accepted).mp compiles).2
  have counts : ∀ name, compiled.graph.count name =
      (Effect.everywhere effects).countP (·.callName? == some name) := by
    intro name
    rw [Graph.count_eq_count_calls, links.calls_perm.count_eq, List.count_filterMap]
  refine ⟨counts, ?_, ?_, ?_, ?_, ?_⟩
  · rw [← countP_isSource_of_accepted accepted]
    exact sum_count_calls accepted links (by decide) _ fun _ _ => Effect.mem_sourceNames_iff
  · rw [← countP_not_isSource_of_accepted accepted]
    exact sum_count_calls accepted links (by decide) _ fun _ _ => Effect.mem_transformNames_iff
  · rw [counts, ← countP_isBlend_of_accepted accepted]
    exact List.countP_congr fun effect _ => by simp [Effect.callName_eq_blend_iff]
  · rw [links.size, Effect.length_program accepted, total]
  · rw [links.calls, Effect.program_eq_postorder, Effect.map_name_filterMap]

theorem count_compileGraph_of_acrylic_branches :
    let branch : List Effect :=
      [.acrylic .host ⟨9, 8, 7, 6⟩ 0.5 0.25 none, .blend [.acrylic .window ⟨1, 2, 3, 4⟩ 0.5 0.25 none] .hue .background]
    let effects : List Effect := [.backdrop .host, .luminance, .blend branch .multiply .foreground, .luminance]
    validate {} effects = .ok ⟨3, 4, 2, 2⟩ ∧
      ∃ compiled, compileGraph {} effects = .ok compiled ∧ compiled.graph.count "luminance_to_alpha" = 2 ∧
        compiled.graph.count "host_backdrop_acrylic" = 1 ∧
        compiled.graph.calls = ["host_backdrop", "luminance_to_alpha", "host_backdrop_acrylic", "backdrop_acrylic",
          "blend", "blend", "luminance_to_alpha"] := by
  intro branch effects
  have accepted : validate {} effects = .ok ⟨3, 4, 2, 2⟩ := rfl
  obtain ⟨compiles, counted⟩ := count_compileGraph accepted
  obtain ⟨compiled, compiles⟩ := compiles.mpr (by decide)
  obtain ⟨counts, _, _, _, _, calls⟩ := counted compiled compiles
  exact ⟨accepted, compiled, compiles, (counts _).trans rfl, (counts _).trans rfl, calls.trans rfl⟩

end VisualEffects
