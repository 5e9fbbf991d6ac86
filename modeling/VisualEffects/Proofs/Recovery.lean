import VisualEffects.Proofs.Recording

namespace VisualEffects

/-! What a compiled graph tells about its pipeline.

A backend never learns the blur of a host acrylic, so pipelines that differ in nothing else are compiled alike.
Everything else can be read back from the graph.
-/

namespace Effect

theorem source_forgetHostBlur (effect : Effect) : effect.forgetHostBlur.source = effect.source := by
  cases effect with
  | acrylic shown => cases shown <;> rfl
  | _ => rfl

end Effect

section
variable (backend : Backend σ ν)

mutual
theorem build_forgetHostBlurs (effects : List Effect) :
    build backend (Effect.forgetHostBlurs effects) = build backend effects := by
  cases effects with
  | nil => rfl
  | cons first rest =>
      simp only [Effect.forgetHostBlurs, build, Effect.source_forgetHostBlur]
      apply bind_congr
      intro call
      apply bind_congr
      intro node
      exact extend_forgetHostBlurs 1 node rest

theorem extend_forgetHostBlurs (index : Nat) (chain : ν) (effects : List Effect) :
    extend backend index chain (Effect.forgetHostBlurs effects) = extend backend index chain effects := by
  cases effects with
  | nil => rfl
  | cons effect rest =>
      simp only [Effect.forgetHostBlurs, extend, wrap_forgetHostBlur index chain effect]
      apply bind_congr
      intro node
      exact extend_forgetHostBlurs (index + 1) node rest

theorem wrap_forgetHostBlur (index : Nat) (chain : ν) (effect : Effect) :
    wrap backend index chain effect.forgetHostBlur = wrap backend index chain effect := by
  cases effect with
  | blend branch mode placement =>
      simp only [Effect.forgetHostBlur, wrap, build_forgetHostBlurs branch]
  | acrylic shown => cases shown <;> rfl
  | _ => rfl
end

end

theorem compileGraph_reads {options : CompileOptions} {effects : List Effect} {shape : Shape}
    {compiled : CompiledGraph} (accepted : validate options effects = .ok shape)
    (compiles : compileGraph options effects = .ok compiled) :
    compiled.graph.Reads compiled.root (Effect.forgetHostBlurs effects) := by
  have read := build_built Graph.record_keeps {} effects
  rw [← compile_of_accepted accepted] at read
  unfold compileGraph at compiles
  split at compiles
  · rename_i root graph answered
    cases compiles
    rw [answered] at read
    exact read.2 root rfl
  · cases compiles

theorem exists_compileGraph_iff {options : CompileOptions} {effects : List Effect} {shape : Shape}
    (accepted : validate options effects = .ok shape) :
    (∃ compiled, compileGraph options effects = .ok compiled) ↔
      (Effect.everywhere effects).length ≤ Graph.idLimit := by
  have none : Graph.size {} = 0 := rfl
  have recorded := compile_record accepted {}
  rw [none, Nat.zero_add] at recorded
  unfold compileGraph
  obtain ⟨calls, root, _, fits, answered⟩ | ⟨after, overflow, answered⟩ := recorded
  · rw [answered]
    exact iff_of_true ⟨_, rfl⟩ (fits (Nat.zero_le _))
  · rw [answered]
    refine iff_of_false ?_ (Nat.not_le.mpr overflow)
    rintro ⟨_, failed⟩
    cases failed

theorem compileGraph_of_forgetHostBlurs {leftOptions rightOptions : CompileOptions} {left right : List Effect}
    {leftShape rightShape : Shape} (leftAccepted : validate leftOptions left = .ok leftShape)
    (rightAccepted : validate rightOptions right = .ok rightShape)
    (same : Effect.forgetHostBlurs left = Effect.forgetHostBlurs right) :
    compileGraph leftOptions left = compileGraph rightOptions right := by
  have built : build Graph.record left = build Graph.record right := by
    rw [← build_forgetHostBlurs Graph.record left, same, build_forgetHostBlurs]
  rw [compileGraph, compileGraph, compile_of_accepted leftAccepted, compile_of_accepted rightAccepted, built]

/-- Accepted pipelines are compiled to the same graph with the same root exactly when they differ in the blur of
host acrylics at most, and there is an identifier for each of their effects. -/
theorem compileGraph_eq_iff {leftOptions rightOptions : CompileOptions} {left right : List Effect}
    {leftShape rightShape : Shape} (leftAccepted : validate leftOptions left = .ok leftShape)
    (rightAccepted : validate rightOptions right = .ok rightShape) :
    (∃ compiled, compileGraph leftOptions left = .ok compiled ∧ compileGraph rightOptions right = .ok compiled) ↔
      Effect.forgetHostBlurs left = Effect.forgetHostBlurs right ∧
        (Effect.everywhere left).length ≤ Graph.idLimit := by
  constructor
  · rintro ⟨compiled, leftCompiles, rightCompiles⟩
    have leftReads := compileGraph_reads leftAccepted leftCompiles
    have rightReads := compileGraph_reads rightAccepted rightCompiles
    exact ⟨leftReads.unique rightReads, (exists_compileGraph_iff leftAccepted).mp ⟨compiled, leftCompiles⟩⟩
  · rintro ⟨same, fits⟩
    obtain ⟨compiled, compiles⟩ := (exists_compileGraph_iff leftAccepted).mpr fits
    refine ⟨compiled, compiles, ?_⟩
    rw [← compileGraph_of_forgetHostBlurs leftAccepted rightAccepted same, compiles]

theorem compileGraph_eq_of_blurred_branches :
    let blurred (amount : Float) : List Effect :=
      [.backdrop .window, .blend [.acrylic .host ⟨9, 8, 7, 6⟩ 0.5 amount none, .luminance] .multiply .foreground]
    validate {} (blurred 0.25) = .ok ⟨2, 2, 1, 1⟩ ∧ validate {} (blurred 0.75) = .ok ⟨2, 2, 1, 1⟩ ∧
      ∃ compiled, compileGraph {} (blurred 0.25) = .ok compiled ∧ compileGraph {} (blurred 0.75) = .ok compiled := by
  intro blurred
  have leftAccepted : validate {} (blurred 0.25) = .ok ⟨2, 2, 1, 1⟩ := rfl
  have rightAccepted : validate {} (blurred 0.75) = .ok ⟨2, 2, 1, 1⟩ := rfl
  have fits : (Effect.everywhere (blurred 0.25)).length ≤ Graph.idLimit := by decide
  have same : Effect.forgetHostBlurs (blurred 0.25) = Effect.forgetHostBlurs (blurred 0.75) := by
    simp only [blurred, Effect.forgetHostBlurs, Effect.forgetHostBlur]
  exact ⟨leftAccepted, rightAccepted, (compileGraph_eq_iff leftAccepted rightAccepted).mpr ⟨same, fits⟩⟩

end VisualEffects
