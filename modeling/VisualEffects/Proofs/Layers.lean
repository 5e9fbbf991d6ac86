import VisualEffects.Pipeline.Shape

namespace VisualEffects

/-! The lists in a tree of effects.

A tree is read as its lists, the list at the top and the branch of every blend, each with the number of blends
around it.  What it takes to be a pipeline, and what is in one, is said of these lists one by one, without
following the recursion of the tree.
-/

/-- A list in a tree of effects, under `depth` blends. -/
structure Layer where
  depth : Nat
  effects : List Effect

/-- The same list, under one more blend. -/
def Layer.deeper (layer : Layer) : Layer := { layer with depth := layer.depth + 1 }

namespace Effect

mutual
/-- The lists in the branch of an effect that stands under `depth` blends. -/
def layersOf (depth : Nat) : Effect → List Layer
  | .blend branch _ _ => ⟨depth + 1, branch⟩ :: layersUnder (depth + 1) branch
  | _ => []

/-- The lists in the branches of a list that stands under `depth` blends. -/
def layersUnder (depth : Nat) : List Effect → List Layer
  | [] => []
  | effect :: rest => layersOf depth effect ++ layersUnder depth rest
end

/-- The lists of a tree that stands under `depth` blends, the outermost first. -/
def layers (depth : Nat) (effects : List Effect) : List Layer := ⟨depth, effects⟩ :: layersUnder depth effects

def everywhere (effects : List Effect) : List Effect := (layers 0 effects).flatMap Layer.effects

def isBlend (effect : Effect) : Bool := effect.kind = .blend

/-- The backdrop that a source shows, if it shows one. -/
def backdrop? : Effect → Option Backdrop
  | .backdrop source => some source
  | .acrylic source _ _ _ _ => some source
  | _ => none

/-- A source that a pipeline may start with. -/
def Starts (effect : Effect) : Prop := effect.isSource = true ∧ effect.backdrop? ≠ some .unknown

theorem layersOf_of_isBlend_false {effect : Effect} (single : effect.isBlend = false) (depth : Nat) :
    layersOf depth effect = [] := by
  cases effect <;> first | rfl | simp [isBlend, kind] at single

theorem isBlend_of_isSource {effect : Effect} (source : effect.isSource = true) : effect.isBlend = false := by
  cases effect <;> first | rfl | cases source

theorem checkSource_eq_ok {effect : Effect} : effect.checkSource = .ok () ↔ effect.Starts := by
  cases effect with
  | backdrop source => cases source <;> simp [checkSource, Starts, isSource, kind, Kind.isSource, backdrop?]
  | acrylic source => cases source <;> simp [checkSource, Starts, isSource, kind, Kind.isSource, backdrop?]
  | _ => simp [checkSource, Starts, isSource, kind, Kind.isSource, backdrop?]

mutual
theorem layersOf_succ (depth : Nat) (effect : Effect) :
    layersOf (depth + 1) effect = (layersOf depth effect).map Layer.deeper := by
  cases effect with
  | blend branch mode placement =>
      rw [layersOf, layersOf, List.map_cons, layersUnder_succ (depth + 1) branch]
      rfl
  | _ => rfl

theorem layersUnder_succ (depth : Nat) (effects : List Effect) :
    layersUnder (depth + 1) effects = (layersUnder depth effects).map Layer.deeper := by
  cases effects with
  | nil => rfl
  | cons effect rest =>
      rw [layersUnder, layersUnder, List.map_append, layersOf_succ depth effect, layersUnder_succ depth rest]
end

theorem layers_succ (depth : Nat) (effects : List Effect) :
    layers (depth + 1) effects = (layers depth effects).map Layer.deeper := by
  rw [layers, layers, List.map_cons, layersUnder_succ]
  rfl

mutual
theorem length_layersOf (depth : Nat) (effect : Effect) :
    (layersOf depth effect).length =
      [effect].countP isBlend + ((layersOf depth effect).flatMap Layer.effects).countP isBlend := by
  cases effect with
  | blend branch mode placement =>
      have inner := length_layersUnder (depth + 1) branch
      simp only [layersOf, List.length_cons, List.flatMap_cons, List.countP_append, inner]
      simp [isBlend, kind]
      omega
  | _ => rfl

/-- A branch belongs to one blend, and a blend has one branch. -/
theorem length_layersUnder (depth : Nat) (effects : List Effect) :
    (layersUnder depth effects).length =
      effects.countP isBlend + ((layersUnder depth effects).flatMap Layer.effects).countP isBlend := by
  cases effects with
  | nil => rfl
  | cons effect rest =>
      have here := length_layersOf depth effect
      have others := length_layersUnder depth rest
      rw [← List.singleton_append, List.countP_append]
      simp only [List.singleton_append, layersUnder, List.length_append, List.flatMap_append, List.countP_append]
      omega
end

end Effect

namespace Layer

/-- A list that starts with a known source, and goes on with anything but sources. -/
def WellFormed (layer : Layer) : Prop :=
  ∃ first rest, layer.effects = first :: rest ∧ first.Starts ∧ ∀ effect ∈ rest, effect.isSource = false

/-- A list that may stand in a pipeline under a limit. -/
def Fits (limit : Nat) (layer : Layer) : Prop := layer.WellFormed ∧ layer.depth ≤ limit

theorem fits_deeper {limit : Nat} {layer : Layer} : layer.deeper.Fits (limit + 1) ↔ layer.Fits limit :=
  and_congr_right fun _ => Nat.succ_le_succ_iff

end Layer

end VisualEffects
