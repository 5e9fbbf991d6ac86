import VisualEffects.Proofs.Layers

namespace VisualEffects

/-! Which pipelines are accepted, and what their shapes count.

The check walks down the tree and stops at the first violation.  Seen from its lists, a tree is accepted when
every list in it fits, and its shape is the sum of the shapes of its lists.
-/

namespace Shape

@[simp] theorem sources_add (left right : Shape) : (left + right).sources = left.sources + right.sources := rfl

@[simp] theorem transforms_add (left right : Shape) :
    (left + right).transforms = left.transforms + right.transforms := rfl

@[simp] theorem blends_add (left right : Shape) : (left + right).blends = left.blends + right.blends := rfl

@[simp] theorem maxDepth_add (left right : Shape) :
    (left + right).maxDepth = max left.maxDepth right.maxDepth := rfl

theorem ext {left right : Shape} (sources : left.sources = right.sources)
    (transforms : left.transforms = right.transforms) (blends : left.blends = right.blends)
    (maxDepth : left.maxDepth = right.maxDepth) : left = right := by
  cases left
  cases right
  simp_all

theorem add_assoc (first second third : Shape) : first + second + third = first + (second + third) := by
  apply ext <;> simp [Nat.add_assoc, Nat.max_assoc]

theorem add_comm (first second : Shape) : first + second = second + first := by
  apply ext <;> simp [Nat.add_comm, Nat.max_comm]

theorem add_left_comm (first second third : Shape) : first + (second + third) = second + (first + third) := by
  apply ext <;> simp [Nat.add_left_comm, Nat.max_left_comm]

@[simp] theorem empty_add (shape : Shape) : {} + shape = shape := by
  apply ext <;> simp

@[simp] theorem add_empty (shape : Shape) : shape + {} = shape := by
  apply ext <;> simp

/-- What effects add to a shape where they follow a source, their branches left out. -/
def ofFollowers (effects : List Effect) : Shape :=
  { transforms := effects.length, blends := effects.countP Effect.isBlend }

/-- What a list adds to a shape, its branches left out. -/
def ofLayer (layer : Layer) : Shape := source layer.depth + ofFollowers layer.effects.tail

def ofLayers : List Layer → Shape
  | [] => {}
  | layer :: rest => ofLayer layer + ofLayers rest

theorem ofLayers_append (first second : List Layer) :
    ofLayers (first ++ second) = ofLayers first + ofLayers second := by
  induction first with
  | nil => apply ext <;> simp [ofLayers]
  | cons layer rest ih => rw [List.cons_append, ofLayers, ofLayers, ih, add_assoc]

theorem ofFollowers_cons (effect : Effect) (rest : List Effect) :
    ofFollowers (effect :: rest) = ofFollowers [effect] + ofFollowers rest := by
  apply ext <;> simp [ofFollowers, List.countP_cons, Nat.add_comm]

theorem ofLayers_layers_cons {first : Effect} (single : first.isBlend = false) (depth : Nat) (rest : List Effect) :
    ofLayers (Effect.layers depth (first :: rest)) =
      source depth + (ofFollowers rest + ofLayers (Effect.layersUnder depth rest)) := by
  simp only [Effect.layers, Effect.layersUnder, ofLayers, Effect.layersOf_of_isBlend_false single, List.nil_append]
  rw [ofLayer, List.tail_cons, add_assoc]

theorem ofList_of_deep {limit depth : Nat} (deep : limit < depth) (effects : List Effect) :
    ofList limit depth effects = .error (.nestedDeeper limit) := by
  cases effects with
  | nil => exact if_pos deep
  | cons first rest =>
      simp only [ofList, if_pos deep]
      rfl

theorem ofList_cons {limit depth : Nat} {first : Effect} {rest : List Effect} {shape : Shape} :
    ofList limit depth (first :: rest) = .ok shape ↔
      depth ≤ limit ∧ first.Starts ∧ ∃ others, ofRest limit depth 1 rest = .ok others ∧ source depth + others = shape := by
  by_cases deep : limit < depth
  · simp [ofList, deep, bind, Except.bind, throw, throwThe, MonadExceptOf.throw, Nat.not_le.mpr deep]
  · simp only [ofList, if_neg deep, bind_eq_ok, ← Effect.checkSource_eq_ok]
    simp only [pure, Except.pure, Except.ok.injEq]
    constructor
    · rintro ⟨_, started, others⟩
      exact ⟨Nat.not_lt.mp deep, started, others⟩
    · rintro ⟨_, started, others⟩
      exact ⟨(), started, others⟩

theorem ofRest_cons {limit depth index : Nat} {effect : Effect} {rest : List Effect} {shape : Shape} :
    ofRest limit depth index (effect :: rest) = .ok shape ↔
      ∃ here, ofTransform limit depth index effect = .ok here ∧
        ∃ others, ofRest limit depth (index + 1) rest = .ok others ∧ here + others = shape := by
  simp only [ofRest, bind_eq_ok]
  simp [pure, Except.pure]

theorem ofTransform_blend {limit depth index : Nat} {branch : List Effect} {mode : BlendMode}
    {placement : Placement} {shape : Shape} :
    ofTransform limit depth index (.blend branch mode placement) = .ok shape ↔
      ∃ inner, ofList limit (depth + 1) branch = .ok inner ∧ blend + inner = shape := by
  simp only [ofTransform, bind_eq_ok]
  simp [pure, Except.pure]

theorem ofTransform_single {limit depth index : Nat} {effect : Effect} {shape : Shape}
    (single : effect.isBlend = false) :
    ofTransform limit depth index effect = .ok shape ↔ effect.isSource = false ∧ transform = shape := by
  cases effect <;> simp_all [ofTransform, Effect.isBlend, Effect.kind, Effect.isSource, Effect.Kind.isSource]

mutual
theorem ofList_eq_ok (limit depth : Nat) (effects : List Effect) (shape : Shape) :
    ofList limit depth effects = .ok shape ↔
      (∀ layer ∈ Effect.layers depth effects, layer.Fits limit) ∧ ofLayers (Effect.layers depth effects) = shape := by
  cases effects with
  | nil =>
      have rejected : ¬ (⟨depth, []⟩ : Layer).Fits limit := by
        rintro ⟨⟨_, _, nonempty, _⟩, _⟩
        cases nonempty
      simp only [Effect.layers, List.forall_mem_cons, rejected, false_and, iff_false]
      unfold ofList
      split <;> simp
  | cons first rest =>
      rw [ofList_cons]
      constructor
      · rintro ⟨shallow, started, others, accepted, rfl⟩
        have single := Effect.isBlend_of_isSource started.1
        obtain ⟨followers, inner, rfl⟩ := (ofRest_eq_ok limit depth 1 rest others).mp accepted
        refine ⟨?_, ofLayers_layers_cons single depth rest⟩
        simp only [Effect.layers, Effect.layersUnder, Effect.layersOf_of_isBlend_false single, List.nil_append,
          List.forall_mem_cons]
        exact ⟨⟨⟨first, rest, rfl, started, followers⟩, shallow⟩, inner⟩
      · simp only [Effect.layers, Effect.layersUnder, List.forall_mem_cons, List.forall_mem_append]
        rintro ⟨⟨⟨⟨_, _, same, started, followers⟩, shallow⟩, _, inner⟩, total⟩
        cases same
        have single := Effect.isBlend_of_isSource started.1
        have accepted := (ofRest_eq_ok limit depth 1 rest _).mpr ⟨followers, inner, rfl⟩
        exact ⟨shallow, started, _, accepted, (ofLayers_layers_cons single depth rest).symm.trans total⟩

theorem ofRest_eq_ok (limit depth index : Nat) (effects : List Effect) (shape : Shape) :
    ofRest limit depth index effects = .ok shape ↔
      (∀ effect ∈ effects, effect.isSource = false) ∧
        (∀ layer ∈ Effect.layersUnder depth effects, layer.Fits limit) ∧
        ofFollowers effects + ofLayers (Effect.layersUnder depth effects) = shape := by
  cases effects with
  | nil =>
      have empty : ofFollowers [] = {} := rfl
      simp [ofRest, Effect.layersUnder, ofLayers, empty]
  | cons effect rest =>
      rw [ofRest_cons]
      simp only [ofTransform_eq_ok limit depth index effect, ofRest_eq_ok limit depth (index + 1) rest,
        List.forall_mem_cons, Effect.layersUnder, List.forall_mem_append, ofLayers_append,
        ofFollowers_cons effect rest]
      constructor
      · rintro ⟨_, ⟨follower, inner, rfl⟩, _, ⟨followers, others, rfl⟩, rfl⟩
        refine ⟨⟨follower, followers⟩, ⟨inner, others⟩, ?_⟩
        simp only [add_assoc, add_left_comm]
      · rintro ⟨⟨follower, followers⟩, ⟨inner, others⟩, rfl⟩
        refine ⟨_, ⟨follower, inner, rfl⟩, _, ⟨followers, others, rfl⟩, ?_⟩
        simp only [add_assoc, add_left_comm]

theorem ofTransform_eq_ok (limit depth index : Nat) (effect : Effect) (shape : Shape) :
    ofTransform limit depth index effect = .ok shape ↔
      effect.isSource = false ∧ (∀ layer ∈ Effect.layersOf depth effect, layer.Fits limit) ∧
        ofFollowers [effect] + ofLayers (Effect.layersOf depth effect) = shape := by
  cases effect with
  | blend branch mode placement =>
      have follower : (Effect.blend branch mode placement).isSource = false := rfl
      have joined : ofFollowers [.blend branch mode placement] = blend := rfl
      rw [ofTransform_blend]
      simp only [ofList_eq_ok limit (depth + 1) branch, follower, joined, true_and]
      constructor
      · rintro ⟨_, ⟨inner, rfl⟩, rfl⟩
        exact ⟨inner, rfl⟩
      · rintro ⟨inner, total⟩
        exact ⟨_, ⟨inner, rfl⟩, total⟩
  | _ =>
      rw [ofTransform_single rfl]
      simp [Effect.layersOf, ofLayers, ofFollowers, transform, Effect.isBlend, Effect.kind]
end

theorem sources_ofLayers (layers : List Layer) : (ofLayers layers).sources = layers.length := by
  induction layers with
  | nil => rfl
  | cons layer rest ih => simp [ofLayers, ofLayer, ofFollowers, source, ih, Nat.add_comm]

theorem effects_ofLayers {layers : List Layer} (wellFormed : ∀ layer ∈ layers, layer.WellFormed) :
    (ofLayers layers).sources + (ofLayers layers).transforms = (layers.flatMap Layer.effects).length := by
  induction layers with
  | nil => rfl
  | cons layer rest ih =>
      obtain ⟨⟨first, others, effects, _, _⟩, restFormed⟩ := List.forall_mem_cons.mp wellFormed
      have counted := ih restFormed
      simp [ofLayers, ofLayer, ofFollowers, source, effects] at counted ⊢
      omega

theorem blends_ofLayers {layers : List Layer} (wellFormed : ∀ layer ∈ layers, layer.WellFormed) :
    (ofLayers layers).blends = (layers.flatMap Layer.effects).countP Effect.isBlend := by
  induction layers with
  | nil => rfl
  | cons layer rest ih =>
      obtain ⟨⟨first, others, effects, started, _⟩, restFormed⟩ := List.forall_mem_cons.mp wellFormed
      have single := Effect.isBlend_of_isSource started.1
      simp [ofLayers, ofLayer, ofFollowers, source, effects, single, ih restFormed]

theorem depth_le_ofLayers {layers : List Layer} {layer : Layer} (member : layer ∈ layers) :
    layer.depth ≤ (ofLayers layers).maxDepth := by
  induction layers with
  | nil => cases member
  | cons head rest ih =>
      have total : (ofLayers (head :: rest)).maxDepth = max (max head.depth 0) (ofLayers rest).maxDepth := rfl
      rcases List.mem_cons.mp member with rfl | later
      · omega
      · have below := ih later
        omega

/-- The greatest depth is that of some list, unless there is no list at all. -/
theorem exists_depth_eq_ofLayers (head : Layer) (rest : List Layer) :
    ∃ layer ∈ head :: rest, layer.depth = (ofLayers (head :: rest)).maxDepth := by
  induction rest generalizing head with
  | nil => exact ⟨head, by simp, by simp [ofLayers, ofLayer, ofFollowers, source]⟩
  | cons next rest ih =>
      obtain ⟨deepest, member, equal⟩ := ih next
      have total : (ofLayers (head :: next :: rest)).maxDepth =
          max (max head.depth 0) (ofLayers (next :: rest)).maxDepth := rfl
      rcases Nat.le_total (ofLayers (next :: rest)).maxDepth head.depth with above | below
      · exact ⟨head, by simp, by omega⟩
      · exact ⟨deepest, List.mem_cons_of_mem head member, by omega⟩

end Shape

section
variable {options : CompileOptions} {effects : List Effect} {shape : Shape}

theorem validate_eq_ok :
    validate options effects = .ok shape ↔
      (∀ layer ∈ Effect.layers 0 effects, layer.Fits options.maxBranchDepth) ∧
        Shape.ofLayers (Effect.layers 0 effects) = shape :=
  Shape.ofList_eq_ok options.maxBranchDepth 0 effects shape

theorem wellFormed_of_validate (accepted : validate options effects = .ok shape) :
    ∀ layer ∈ Effect.layers 0 effects, layer.WellFormed :=
  fun layer member => ((validate_eq_ok.mp accepted).1 layer member).1

theorem effects_of_validate (accepted : validate options effects = .ok shape) :
    shape.sources + shape.transforms = (Effect.everywhere effects).length := by
  rw [← (validate_eq_ok.mp accepted).2]
  exact Shape.effects_ofLayers (wellFormed_of_validate accepted)

theorem exists_layer_at_maxDepth (accepted : validate options effects = .ok shape) :
    ∃ layer ∈ Effect.layers 0 effects, layer.Fits options.maxBranchDepth ∧ layer.depth = shape.maxDepth := by
  obtain ⟨fits, rfl⟩ := validate_eq_ok.mp accepted
  obtain ⟨deepest, member, depth⟩ := Shape.exists_depth_eq_ofLayers ⟨0, effects⟩ (Effect.layersUnder 0 effects)
  exact ⟨deepest, member, fits deepest member, depth⟩

end

/-- A pipeline is accepted exactly when every list in its tree is well formed and stands under no more blends
than allowed, and then the shape counts the lists, the effects and the blends of the tree, and the most blends
around any list. -/
theorem validate_iff_fits_and_counts (options : CompileOptions) (effects : List Effect) :
    ((∃ shape, validate options effects = .ok shape) ↔
      ∀ layer ∈ Effect.layers 0 effects, layer.WellFormed ∧ layer.depth ≤ options.maxBranchDepth) ∧
    ∀ shape, validate options effects = .ok shape →
      shape.sources = (Effect.layers 0 effects).length ∧
      shape.sources = shape.blends + 1 ∧
      shape.sources + shape.transforms = (Effect.everywhere effects).length ∧
      shape.blends = (Effect.everywhere effects).countP Effect.isBlend ∧
      (∃ layer ∈ Effect.layers 0 effects, layer.depth = shape.maxDepth) ∧
      ∀ layer ∈ Effect.layers 0 effects, layer.depth ≤ shape.maxDepth := by
  have accepted := Shape.ofList_eq_ok options.maxBranchDepth 0 effects
  refine ⟨⟨?_, ?_⟩, ?_⟩
  · rintro ⟨shape, validated⟩
    exact ((accepted shape).mp validated).1
  · intro fits
    exact ⟨_, (accepted _).mpr ⟨fits, rfl⟩⟩
  · intro shape validated
    obtain ⟨fits, rfl⟩ := (accepted shape).mp validated
    have wellFormed : ∀ layer ∈ Effect.layers 0 effects, layer.WellFormed := fun layer member =>
      (fits layer member).1
    have lists := Shape.sources_ofLayers (Effect.layers 0 effects)
    have blends := Shape.blends_ofLayers wellFormed
    refine ⟨lists, ?_, Shape.effects_ofLayers wellFormed, blends,
      Shape.exists_depth_eq_ofLayers _ _, fun layer member => Shape.depth_le_ofLayers member⟩
    have branches := Effect.length_layersUnder 0 effects
    rw [lists, blends]
    simp only [Effect.layers, List.length_cons, List.flatMap_cons, List.countP_append]
    omega

end VisualEffects
