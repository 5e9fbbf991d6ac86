import VisualEffects.Proofs.Execution

namespace VisualEffects

/-! All violations of a tree of effects, in reading order.

The check of a pipeline stops at the first violation.  Here the whole tree is read from left to right, the branch of a
blend where the blend stands, and nothing stops the reading but a list that stands too deep, which is not looked into.
What the check reports is the first violation of that reading.
-/

namespace Lint

/-- What is wrong with an effect at the start of a list. -/
def ofStart : Effect → List Error
  | .backdrop .unknown => [.invalidSource "backdrop(unknown)"]
  | .acrylic .unknown _ _ _ _ => [.invalidAcrylicSource "unknown"]
  | effect => if effect.isSource then [] else [.invalidSource effect.kind.name]

mutual
/-- The violations in a list that stands under `depth` blends. -/
def ofList (limit depth : Nat) (effects : List Effect) : List Error :=
  if limit < depth then [.nestedDeeper limit]
  else
    match effects with
    | [] => [.emptyPipeline]
    | first :: rest => ofStart first ++ ofRest limit depth 1 rest

/-- The violations in what follows the start of a list; `index` is the position there. -/
def ofRest (limit depth index : Nat) : List Effect → List Error
  | [] => []
  | effect :: rest => ofFollower limit depth index effect ++ ofRest limit depth (index + 1) rest

def ofFollower (limit depth index : Nat) : Effect → List Error
  | .blend branch _ _ => ofList limit (depth + 1) branch
  | effect => if effect.isSource then [.invalidTransform index effect.kind.name] else []
end

/-- An outcome that reports the first of some violations, and is a success when there are none. -/
def Reports (violations : List Error) (outcome : Except Error α) : Prop :=
  match violations with
  | [] => ∃ value, outcome = .ok value
  | first :: _ => outcome = .error first

theorem Reports.bind {earlier later : List Error} {outcome : Except Error α} {next : α → Except Error β}
    (reports : Reports earlier outcome) (followed : ∀ value, outcome = .ok value → Reports later (next value)) :
    Reports (earlier ++ later) (outcome >>= next) := by
  cases earlier with
  | nil =>
      obtain ⟨value, rfl⟩ := reports
      exact followed value rfl
  | cons first others =>
      cases (reports : outcome = .error first)
      rfl

theorem Reports.map {violations : List Error} {outcome : Except Error α} (reports : Reports violations outcome)
    (change : α → β) : Reports violations (outcome >>= fun value => pure (change value)) := by
  have followed : Reports (violations ++ []) (outcome >>= fun value => pure (change value)) :=
    reports.bind fun value _ => ⟨change value, rfl⟩
  rwa [List.append_nil] at followed

theorem checkSource_reports (effect : Effect) : Reports (ofStart effect) effect.checkSource := by
  cases effect with
  | backdrop source => cases source <;> first | exact ⟨(), rfl⟩ | rfl
  | acrylic source => cases source <;> first | exact ⟨(), rfl⟩ | rfl
  | solidColor | image | tile => exact ⟨(), rfl⟩
  | opacity | luminance | tint | blur | saturation | blend => rfl

mutual
theorem ofList_reports (limit depth : Nat) (effects : List Effect) :
    Reports (ofList limit depth effects) (Shape.ofList limit depth effects) := by
  unfold ofList
  split
  case isTrue deep =>
    cases effects with
    | nil => exact if_pos deep
    | cons first rest => simp only [Shape.ofList, if_pos deep]; rfl
  case isFalse shallow =>
    cases effects with
    | nil => exact if_neg shallow
    | cons first rest =>
        simp only [Shape.ofList, if_neg shallow]
        exact (checkSource_reports first).bind fun _ _ => (ofRest_reports limit depth 1 rest).map _

theorem ofRest_reports (limit depth index : Nat) (effects : List Effect) :
    Reports (ofRest limit depth index effects) (Shape.ofRest limit depth index effects) := by
  cases effects with
  | nil => exact ⟨_, rfl⟩
  | cons effect rest =>
      exact (ofFollower_reports limit depth index effect).bind fun _ _ =>
        (ofRest_reports limit depth (index + 1) rest).map _

theorem ofFollower_reports (limit depth index : Nat) (effect : Effect) :
    Reports (ofFollower limit depth index effect) (Shape.ofTransform limit depth index effect) := by
  cases effect with
  | blend branch mode placement => exact (ofList_reports limit (depth + 1) branch).map _
  | opacity | luminance | tint | blur | saturation => exact ⟨_, rfl⟩
  | backdrop | solidColor | image | tile | acrylic => rfl
end

end Lint

/-- All violations of a pipeline. -/
def lint (options : CompileOptions) (effects : List Effect) : List Error :=
  Lint.ofList options.maxBranchDepth 0 effects

/-- When a pipeline has violations, the first of them in reading order is what checking it reports, and what compiling
it reports on any backend, which is not called.  When it has none, it is accepted, and compiling it fails only where
the backend itself refuses a call: on a backend that answers every call it succeeds. -/
theorem compile_reports_first_violation (options : CompileOptions) (effects : List Effect) (backend : Backend σ ν)
    (before : σ) :
    (∀ first others, lint options effects = first :: others →
      validate options effects = .error first ∧
        (compile options backend effects).run.run before = (.error first, before)) ∧
    (lint options effects = [] →
      (∃ shape, validate options effects = .ok shape) ∧
      (∀ error after, (compile options backend effects).run.run before = (.error error, after) →
        ∃ call during, (backend call).run.run during = (.error error, after)) ∧
      ((∀ call during, ∃ node after, (backend call).run.run during = (.ok node, after)) →
        ∃ node after, (compile options backend effects).run.run before = (.ok node, after))) := by
  have reports : Lint.Reports (lint options effects) (validate options effects) :=
    Lint.ofList_reports options.maxBranchDepth 0 effects
  refine ⟨?_, ?_⟩
  · intro first others found
    rw [found] at reports
    exact ⟨reports, run_compile_of_rejected reports backend before⟩
  · intro clean
    rw [clean] at reports
    obtain ⟨shape, accepted⟩ := reports
    refine ⟨⟨shape, accepted⟩, fun _ _ => exists_call_of_compile_error accepted backend, ?_⟩
    intro willing
    cases outcome : (compile options backend effects).run.run before with
    | mk answer after =>
        cases answer with
        | ok node => exact ⟨node, after, rfl⟩
        | error error =>
            obtain ⟨call, during, refused⟩ := exists_call_of_compile_error accepted backend outcome
            obtain ⟨node, later, answered⟩ := willing call during
            cases refused.symm.trans answered

/-- Positions are counted in the list in which a violation stands. -/
example : lint {} [.luminance, .blend [.backdrop .unknown, .solidColor ⟨1, 2, 3, 4⟩] .hue .background, .blend [] .hue
      .background, .backdrop .host] =
    [.invalidSource "luminance", .invalidSource "backdrop(unknown)", .invalidTransform 1 "solid_color", .emptyPipeline,
      .invalidTransform 3 "backdrop"] := rfl

end VisualEffects
