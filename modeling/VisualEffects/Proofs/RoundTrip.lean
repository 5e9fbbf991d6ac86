import VisualEffects.Pipeline.Basic
import VisualEffects.Proofs.Entries

namespace VisualEffects

/-! Pipelines are read back from what is written of them.

Writing a pipeline and reading it changes nothing but its amounts: each becomes what its own text is read as.
An amount that is not finite is written as nothing, and nothing is no number.
-/

open Json (Value)

namespace Pipeline

/-- All amounts of a pipeline, in the order in which they are written. -/
def amounts (pipeline : Pipeline) : List Float := Effect.listAmounts pipeline.effects

/-- What reading a written pipeline gives, for every pipeline that is not nested too deep. -/
theorem toOption_ofText_line (pipeline : Pipeline) (fits : pipeline.toValue.nesting < 128) :
    (ofText pipeline.toValue.line).toOption =
      (Effect.mapListAmounts? Value.rereadReal? pipeline.effects).map Pipeline.mk := by
  have written : ∀ n ∈ pipeline.toValue.numbers, n.IsWritten := Effect.isWritten_toValues pipeline.effects
  have inner : Value.nestingItems (Effect.toValues pipeline.effects) ≤ 126 :=
    Nat.le_of_lt_succ (Nat.lt_of_succ_lt_succ fits)
  have root : readNode Json.Document.depthLimit pipeline.toValue.node =
      (Json.Node.readItems (Effect.readNode 126) (Value.nodeItems (Effect.toValues pipeline.effects))).map
        Pipeline.mk := by
    rw [toValue, Value.node, readNode, Json.Document.depthLimit, Json.Node.readList]
    cases Json.Node.readItems (Effect.readNode 126) (Value.nodeItems (Effect.toValues pipeline.effects)) <;> rfl
  rw [ofText, Json.Document.ofText_line written, ← Effect.readItems_toValues pipeline.effects inner]
  simp only [Json.Document.read, root]
  cases Json.Node.readItems (Effect.readNode 126) (Value.nodeItems (Effect.toValues pipeline.effects)) <;> rfl

/-- A pipeline whose amounts are finite and read back is read back itself, whatever its effects are; with an amount
that is not finite, no pipeline is read. -/
theorem round_trip (pipeline : Pipeline) (fits : pipeline.toValue.nesting < 128) :
    ((∀ x ∈ pipeline.amounts, x.isFinite = true ∧ Value.ReadsBack x) →
      ofText pipeline.toValue.line = .ok pipeline ∧ pipeline.same pipeline = true) ∧
    ((∃ x ∈ pipeline.amounts, x.isFinite = false) →
      ∃ reason, ofText pipeline.toValue.line = .error (.serialization reason)) := by
  have result := toOption_ofText_line pipeline fits
  constructor
  · intro good
    have kept : ∀ x ∈ Effect.listAmounts pipeline.effects, Value.rereadReal? x = some x := by
      intro x inside
      rw [Value.rereadReal?, Value.readsBack_iff.mp (good x inside).2]
      rfl
    rw [Effect.mapListAmounts?_of_same _ kept] at result
    refine ⟨?_, Effect.sameList_self _ fun x inside => (good x inside).1⟩
    cases read : ofText pipeline.toValue.line with
    | error error => rw [read] at result; cases result
    | ok found => rw [read] at result; cases result; rfl
  · rintro ⟨x, inside, infinite⟩
    rw [Effect.mapListAmounts?_of_none _ inside (Value.rereadReal?_of_not_finite infinite)] at result
    cases read : (Json.Document.ofText pipeline.toValue.line).read readNode with
    | error fault => exact ⟨_, by rw [ofText, read]; rfl⟩
    | ok found => rw [ofText, read] at result; cases result

/-- A pipeline that is not accepted: the backdrop is not known, and a branch has no source. -/
def unsound (blur : Float) : Pipeline :=
  ⟨[.acrylic .unknown ⟨1, 2, 3, 255⟩ 0.5 blur (some "noise \"1\"\n"),
    .blend [.image "a" .ignore .disabled, .blend [] .hue .background] .multiply .foreground]⟩

theorem round_trip_of_unsound :
    (unsound (-2.25)).toValue.nesting < 128 ∧
      (ofText (unsound (-2.25)).toValue.line = .ok (unsound (-2.25)) ∧
        (unsound (-2.25)).same (unsound (-2.25)) = true) ∧
      ∃ reason, ofText (unsound (0 / 0)).toValue.line = .error (.serialization reason) := by
  have kept : ∀ x ∈ (unsound (-2.25)).amounts, x.isFinite = true ∧ Value.ReadsBack x := by
    simp only [Value.readsBack_iff]
    decide +kernel
  have fits : (unsound (-2.25)).toValue.nesting < 128 := by decide
  exact ⟨fits, (round_trip _ fits).1 kept, (round_trip (unsound (0 / 0)) (by decide)).2 (by decide +kernel)⟩

end Pipeline

end VisualEffects
