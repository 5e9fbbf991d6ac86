import VisualEffects.Effect.Basic

namespace VisualEffects

/-! The amounts in a tree of effects, in the order in which they are written, and replacing all of them. -/

theorem beq_self_of_finite {x : Float} (finite : x.isFinite = true) : (x == x) = true := by
  simp only [Float.isFinite, Float.Model.isFinite, BEq.beq, Float.beq, Float.Model.beq] at finite ⊢
  generalize x.toModel.unpack = unpacked at finite ⊢
  cases unpacked with
  | notANumber => cases finite
  | infinity sign => cases finite
  | zero sign => rfl
  | finite sign mantissa exponent =>
      have exponents : compare exponent exponent = .eq := Std.ReflCmp.compare_self
      have mantissas : compare mantissa mantissa = .eq := Std.ReflCmp.compare_self
      cases sign with
      | positive =>
          change (some ((compare exponent exponent).then (compare mantissa mantissa)) == some .eq) = true
          rw [exponents, mantissas]
          rfl
      | negative =>
          change (some ((compare exponent exponent).then (compare mantissa mantissa)).swap == some .eq) = true
          rw [exponents, mantissas]
          rfl

namespace Effect

mutual
/-- The amounts of an effect and of its branch. -/
def amounts : Effect → List Float
  | acrylic _ _ mix amount _ => [mix, amount]
  | opacity value => [value]
  | tint _ amount => [amount]
  | blur value => [value]
  | saturation value => [value]
  | blend branch _ _ => listAmounts branch
  | backdrop _ | solidColor _ | image _ _ _ | tile _ _ _ | luminance => []

def listAmounts : List Effect → List Float
  | [] => []
  | effect :: rest => amounts effect ++ listAmounts rest
end

mutual
/-- The effect with each amount replaced, if there is a replacement for each. -/
def mapAmounts? (replace : Float → Option Float) : Effect → Option Effect
  | acrylic source color mix amount texture => do return acrylic source color (← replace mix) (← replace amount) texture
  | opacity value => do return opacity (← replace value)
  | tint color amount => do return tint color (← replace amount)
  | blur value => do return blur (← replace value)
  | saturation value => do return saturation (← replace value)
  | blend branch mode placement => do return blend (← mapListAmounts? replace branch) mode placement
  | backdrop source => some (backdrop source)
  | solidColor color => some (solidColor color)
  | image uri dpi cache => some (image uri dpi cache)
  | tile uri dpi cache => some (tile uri dpi cache)
  | luminance => some luminance

def mapListAmounts? (replace : Float → Option Float) : List Effect → Option (List Effect)
  | [] => some []
  | effect :: rest => do
      let first ← mapAmounts? replace effect
      let others ← mapListAmounts? replace rest
      return first :: others
end

section
variable {replace : Float → Option Float}

mutual
theorem mapAmounts?_of_same (effect : Effect) (same : ∀ x ∈ effect.amounts, replace x = some x) :
    effect.mapAmounts? replace = some effect :=
  match effect with
  | acrylic _ _ mix amount _ => by
      rw [mapAmounts?, same mix (by simp [amounts]), same amount (by simp [amounts])]
      rfl
  | opacity value | blur value | saturation value => by
      rw [mapAmounts?, same value (by simp [amounts])]
      rfl
  | tint _ amount => by
      rw [mapAmounts?, same amount (by simp [amounts])]
      rfl
  | blend branch _ _ => by
      rw [mapAmounts?, mapListAmounts?_of_same branch same]
      rfl
  | backdrop _ | solidColor _ | image _ _ _ | tile _ _ _ | luminance => by rw [mapAmounts?]

theorem mapListAmounts?_of_same (effects : List Effect) (same : ∀ x ∈ listAmounts effects, replace x = some x) :
    mapListAmounts? replace effects = some effects :=
  match effects with
  | [] => by rw [mapListAmounts?]
  | effect :: rest => by
      rw [listAmounts, List.forall_mem_append] at same
      rw [mapListAmounts?, mapAmounts?_of_same effect same.1, mapListAmounts?_of_same rest same.2]
      rfl
end

mutual
theorem mapAmounts?_of_none (effect : Effect) {x : Float} (inside : x ∈ effect.amounts) (none : replace x = none) :
    effect.mapAmounts? replace = .none :=
  match effect with
  | acrylic _ _ mix amount _ => by
      rw [mapAmounts?]
      rcases List.mem_cons.mp inside with same | rest
      · rw [← same, none]
        rfl
      · rw [← List.mem_singleton.mp rest, none]
        cases replace mix <;> rfl
  | opacity value | blur value | saturation value => by
      cases List.mem_singleton.mp inside
      rw [mapAmounts?, none]
      rfl
  | tint _ amount => by
      cases List.mem_singleton.mp inside
      rw [mapAmounts?, none]
      rfl
  | blend branch _ _ => by
      rw [mapAmounts?, mapListAmounts?_of_none branch inside none]
      rfl
  | backdrop _ | solidColor _ | image _ _ _ | tile _ _ _ | luminance => by cases inside

theorem mapListAmounts?_of_none (effects : List Effect) {x : Float} (inside : x ∈ listAmounts effects)
    (none : replace x = none) : mapListAmounts? replace effects = .none :=
  match effects with
  | [] => by cases inside
  | effect :: rest => by
      rw [mapListAmounts?]
      rcases List.mem_append.mp inside with first | others
      · rw [mapAmounts?_of_none effect first none]
        rfl
      · rw [mapListAmounts?_of_none rest others none]
        cases effect.mapAmounts? replace <;> rfl
end

end

mutual
/-- An effect equals itself as long as its amounts are numbers. -/
theorem same_self (effect : Effect) (finite : ∀ x ∈ effect.amounts, x.isFinite = true) :
    same effect effect = true :=
  match effect with
  | acrylic _ _ mix amount _ => by
      rw [same, beq_self_of_finite (finite mix (by simp [amounts])),
        beq_self_of_finite (finite amount (by simp [amounts]))]
      simp
  | opacity value | blur value | saturation value => by
      rw [same, beq_self_of_finite (finite value (by simp [amounts]))]
  | tint _ amount => by
      rw [same, beq_self_of_finite (finite amount (by simp [amounts]))]
      simp
  | blend branch _ _ => by
      rw [same, sameList_self branch finite]
      simp
  | backdrop _ | solidColor _ | image _ _ _ | tile _ _ _ | luminance => by simp [same]

theorem sameList_self (effects : List Effect) (finite : ∀ x ∈ listAmounts effects, x.isFinite = true) :
    sameList effects effects = true :=
  match effects with
  | [] => by rw [sameList]
  | effect :: rest => by
      rw [listAmounts, List.forall_mem_append] at finite
      rw [sameList, same_self effect finite.1, sameList_self rest finite.2]
      rfl
end

end Effect

end VisualEffects
