import VisualEffects.Proofs.Acceptance

namespace VisualEffects

/-! Pipelines under different limits.

A limit is only looked at where a list might stand too deep.  So checking under a smaller limit does what checking
under a larger one does, up to a list that only the larger one admits, which is refused for its depth.  The smallest
limit under which a pipeline is accepted is the depth that its shape reports.
-/

/-- What becomes of an outcome when the limit is lowered: nothing, or it is the refusal of a list that stands too
deep. -/
def Lowered (limit : Nat) (lower higher : Except Error α) : Prop :=
  lower = higher ∨ lower = .error (.nestedDeeper limit)

theorem Lowered.refl (limit : Nat) (outcome : Except Error α) : Lowered limit outcome outcome := .inl rfl

theorem Lowered.bind {limit : Nat} {lower higher : Except Error α} {next following : α → Except Error β}
    (first : Lowered limit lower higher) (later : ∀ value, Lowered limit (next value) (following value)) :
    Lowered limit (lower >>= next) (higher >>= following) := by
  rcases first with rfl | rfl
  · cases lower with
    | error error => exact .refl limit _
    | ok value => exact later value
  · exact .inr rfl

theorem Lowered.eq_ok {limit : Nat} {lower higher : Except Error α} {value : α}
    (lowered : Lowered limit lower higher) (answered : lower = .ok value) : higher = .ok value := by
  rcases lowered with same | refused
  · exact same ▸ answered
  · cases answered.symm.trans refused

theorem Lowered.eq_error {limit : Nat} {lower higher : Except Error α} {error : Error}
    (lowered : Lowered limit lower higher) (failed : lower = .error error) (other : error ≠ .nestedDeeper limit) :
    higher = .error error := by
  rcases lowered with same | refused
  · exact same ▸ failed
  · cases failed.symm.trans refused
    exact absurd rfl other

namespace Shape

mutual
theorem ofList_lowered {low high : Nat} (raised : low ≤ high) (depth : Nat) (effects : List Effect) :
    Lowered low (ofList low depth effects) (ofList high depth effects) := by
  rcases Nat.lt_or_ge low depth with deep | shallow
  · exact .inr (ofList_of_deep deep effects)
  · -- A list that both limits admit is walked through in the same way, and only its branches can tell them apart.
    have withinLow : ¬low < depth := Nat.not_lt.mpr shallow
    have withinHigh : ¬high < depth := Nat.not_lt.mpr (Nat.le_trans shallow raised)
    cases effects with
    | nil =>
        rw [ofList, ofList, if_neg withinLow, if_neg withinHigh]
        exact .refl low _
    | cons first rest =>
        simp only [ofList, if_neg withinLow, if_neg withinHigh]
        refine (Lowered.refl low first.checkSource).bind fun _ => ?_
        exact (ofRest_lowered raised depth 1 rest).bind fun _ => .refl low _

theorem ofRest_lowered {low high : Nat} (raised : low ≤ high) (depth index : Nat) (effects : List Effect) :
    Lowered low (ofRest low depth index effects) (ofRest high depth index effects) := by
  cases effects with
  | nil => exact .refl low _
  | cons effect rest =>
      refine (ofTransform_lowered raised depth index effect).bind fun _ => ?_
      exact (ofRest_lowered raised depth (index + 1) rest).bind fun _ => .refl low _

theorem ofTransform_lowered {low high : Nat} (raised : low ≤ high) (depth index : Nat) (effect : Effect) :
    Lowered low (ofTransform low depth index effect) (ofTransform high depth index effect) := by
  cases effect with
  | blend branch mode placement =>
      exact (ofList_lowered raised (depth + 1) branch).bind fun _ => .refl low _
  | _ => exact .refl low _
end

end Shape

theorem validate_lowered {low high : CompileOptions} (raised : low.maxBranchDepth ≤ high.maxBranchDepth)
    (effects : List Effect) :
    Lowered low.maxBranchDepth (validate low effects) (validate high effects) :=
  Shape.ofList_lowered raised 0 effects

/-- A limit of at least the depth that the shape reports is all that an accepted pipeline needs. -/
theorem validate_of_maxDepth_le {options enough : CompileOptions} {effects : List Effect} {shape : Shape}
    (accepted : validate enough effects = .ok shape) (admits : shape.maxDepth ≤ options.maxBranchDepth) :
    validate options effects = .ok shape := by
  obtain ⟨fits, rfl⟩ := validate_eq_ok.mp accepted
  refine validate_eq_ok.mpr ⟨?_, rfl⟩
  intro layer member
  exact ⟨(fits layer member).1, Nat.le_trans (Shape.depth_le_ofLayers member) admits⟩

theorem maxDepth_le_of_validate {options : CompileOptions} {effects : List Effect} {shape : Shape}
    (accepted : validate options effects = .ok shape) : shape.maxDepth ≤ options.maxBranchDepth := by
  obtain ⟨deepest, _, fits, depth⟩ := exists_layer_at_maxDepth accepted
  exact depth ▸ fits.2

/-- Nothing but its depth keeps a pipeline from being accepted that is accepted under some limit. -/
theorem validate_of_lt_maxDepth {options enough : CompileOptions} {effects : List Effect} {shape : Shape}
    (accepted : validate enough effects = .ok shape) (exceeds : options.maxBranchDepth < shape.maxDepth) :
    validate options effects = .error (.nestedDeeper options.maxBranchDepth) := by
  have raised : options.maxBranchDepth ≤ enough.maxBranchDepth :=
    Nat.le_of_lt (Nat.lt_of_lt_of_le exceeds (maxDepth_le_of_validate accepted))
  rcases validate_lowered raised effects with same | refused
  · -- Had the smaller limit made no difference, it would admit the list that lies deepest.
    have admitted := maxDepth_le_of_validate (same.trans accepted)
    exact absurd admitted (Nat.not_le.mpr exceeds)
  · exact refused

/-- Some limit accepts a pipeline exactly when every list in it is well formed. -/
theorem exists_validate_eq_ok_iff (effects : List Effect) :
    (∃ enough shape, validate enough effects = .ok shape) ↔ ∀ layer ∈ Effect.layers 0 effects, layer.WellFormed := by
  constructor
  · rintro ⟨enough, shape, accepted⟩
    exact wellFormed_of_validate accepted
  · intro formed
    refine ⟨⟨(Shape.ofLayers (Effect.layers 0 effects)).maxDepth⟩, _, validate_eq_ok.mpr ⟨?_, rfl⟩⟩
    intro layer member
    exact ⟨formed layer member, Shape.depth_le_ofLayers member⟩

/-- Raising the limit keeps the shape of a pipeline, and keeps every error but the refusal of a list for its depth.  A
pipeline of well-formed lists has one shape, and the depth in it divides the limits: from there on the pipeline is
accepted with that shape, and below it is refused for its depth, whatever stands before the list that is too deep. -/
theorem validate_under_limits {low high : CompileOptions} (raised : low.maxBranchDepth ≤ high.maxBranchDepth)
    (effects : List Effect) :
    (∀ shape, validate low effects = .ok shape → validate high effects = .ok shape) ∧
    (∀ error, validate low effects = .error error →
      error ≠ .validation ("blend branches nested deeper than " ++ toString low.maxBranchDepth) →
      validate high effects = .error error) ∧
    ((∃ enough shape, validate enough effects = .ok shape) ↔ ∀ layer ∈ Effect.layers 0 effects, layer.WellFormed) ∧
    ∀ enough shape, validate enough effects = .ok shape → ∀ options : CompileOptions,
      (shape.maxDepth ≤ options.maxBranchDepth → validate options effects = .ok shape) ∧
      (options.maxBranchDepth < shape.maxDepth → validate options effects =
        .error (.validation ("blend branches nested deeper than " ++ toString options.maxBranchDepth))) := by
  have lowered := validate_lowered raised effects
  refine ⟨fun _ => lowered.eq_ok, fun _ => lowered.eq_error, exists_validate_eq_ok_iff effects, ?_⟩
  intro enough shape accepted options
  exact ⟨validate_of_maxDepth_le accepted, validate_of_lt_maxDepth accepted⟩

/-- The misplaced source stands before the branch that is too deep under the limit 1, and is reported under every
limit from 1 on. Without it the limit 2 is needed. -/
theorem validate_under_limits_of_nested_blends :
    let deep : Effect := .blend [.backdrop .host, .blend [.backdrop .window, .luminance] .screen .background]
      .multiply .foreground
    let misplaced : List Effect := [.backdrop .window, .luminance, .backdrop .host, deep]
    (∀ limit, 1 ≤ limit → validate ⟨limit⟩ misplaced = .error (.invalidTransform 2 "backdrop")) ∧
      validate ⟨1⟩ [.backdrop .window, deep] = .error (.validation "blend branches nested deeper than 1") ∧
      ∀ limit, 2 ≤ limit → validate ⟨limit⟩ [.backdrop .window, deep] = .ok ⟨3, 3, 2, 2⟩ := by
  intro deep misplaced
  have accepted : validate ⟨2⟩ [.backdrop .window, deep] = .ok ⟨3, 3, 2, 2⟩ := rfl
  have rejected : validate ⟨1⟩ misplaced = .error (.invalidTransform 2 "backdrop") := rfl
  refine ⟨?_, ?_, ?_⟩
  · intro limit raised
    exact (@validate_under_limits ⟨1⟩ ⟨limit⟩ raised misplaced).2.1 _ rejected nofun
  · exact ((validate_under_limits (Nat.le_refl 1) [.backdrop .window, deep]).2.2.2 ⟨2⟩ _ accepted ⟨1⟩).2 (by decide)
  · intro limit raised
    exact (@validate_under_limits ⟨2⟩ ⟨limit⟩ raised [.backdrop .window, deep]).1 _ accepted

end VisualEffects
