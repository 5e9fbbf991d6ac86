import VisualEffects.Pipeline.Compile
import VisualEffects.Proofs.Acceptance

namespace VisualEffects

/-! Compiling as the execution of a flat program.

A tree of effects is a program in reverse Polish order for a machine with a stack of nodes: a source pushes a
node, a transform replaces the top, a blend joins the top, its branch, to the node below it, its chain.  For an
accepted pipeline, compiling it and executing its program are the same action on every backend.
-/

namespace Effect

/-- The operation an effect stands for, wherever it stands; what comes before it in its branch is left out. -/
def operation? : Effect → Option Operation
  | .backdrop .window => some (.source .backdrop)
  | .backdrop .host => some (.source .hostBackdrop)
  | .backdrop .unknown => none
  | .solidColor color => some (.source (.solidColor color))
  | .image uri dpi cache => some (.source (.image uri dpi cache))
  | .tile uri dpi cache => some (.source (.tiles uri dpi cache))
  | .acrylic .window color mix amount texture => some (.source (.backdropAcrylic color mix amount texture))
  | .acrylic .host color mix _ texture => some (.source (.hostBackdropAcrylic color mix texture))
  | .acrylic .unknown _ _ _ _ => none
  | .opacity value => some (.transform (.opacity value))
  | .luminance => some (.transform .luminanceToAlpha)
  | .tint color amount => some (.transform (.tint color amount))
  | .blur amount => some (.transform (.blur amount))
  | .saturation value => some (.transform (.saturation value))
  | .blend _ mode placement => some (.blend mode placement)

mutual
def operations : Effect → List Operation
  | .blend branch mode placement => program branch ++ (blend branch mode placement).operation?.toList
  | effect => effect.operation?.toList

/-- The operations of a list of effects in reverse Polish order. -/
def program : List Effect → List Operation
  | [] => []
  | effect :: rest => operations effect ++ program rest
end

theorem program_append (first second : List Effect) : program (first ++ second) = program first ++ program second := by
  induction first with
  | nil => rfl
  | cons effect rest ih => rw [List.cons_append, program, program, ih, List.append_assoc]

theorem operations_of_source {effect : Effect} {call : Source} (made : effect.source = .ok call) :
    effect.operations = [.source call] := by
  cases effect with
  | backdrop source | acrylic source =>
      cases source <;> cases made <;> rfl
  | _ => cases made <;> rfl

/-- A pipeline may start with what the check accepts, and that has a call. -/
theorem Starts.source {effect : Effect} (starts : effect.Starts) :
    ∃ call, effect.source = .ok call ∧ effect.operations = [.source call] := by
  have passed := checkSource_eq_ok.mpr starts
  rw [checkSource_eq_source, map_eq_ok] at passed
  obtain ⟨call, made, _⟩ := passed
  exact ⟨call, made, operations_of_source made⟩

theorem transform_of_single {effect : Effect} (follows : effect.isSource = false) (single : effect.isBlend = false) :
    ∃ step, effect.transform? = some step ∧ effect.operations = [.transform step] := by
  cases effect with
  | opacity | luminance | tint | blur | saturation => exact ⟨_, rfl, rfl⟩
  | blend => simp [isBlend, kind] at single
  | _ => cases follows

theorem filterMap_operation_cons (effect : Effect) (rest : List Effect) :
    (effect :: rest).filterMap operation? = effect.operation?.toList ++ rest.filterMap operation? := by
  rw [List.filterMap_cons]
  cases effect.operation? <;> rfl

mutual
theorem operations_perm (depth : Nat) (effect : Effect) :
    effect.operations.Perm
      (effect.operation?.toList ++ ((layersOf depth effect).flatMap Layer.effects).filterMap operation?) := by
  cases effect with
  | blend branch mode placement =>
      have inner := program_perm (depth + 1) branch
      rw [operations, layersOf, List.flatMap_cons]
      exact List.perm_append_comm.trans (inner.append_left _)
  | _ => simp [operations, layersOf]

/-- A program holds the operations of all effects of its tree. -/
theorem program_perm (depth : Nat) (effects : List Effect) :
    (program effects).Perm
      ((effects ++ (layersUnder depth effects).flatMap Layer.effects).filterMap operation?) := by
  cases effects with
  | nil => exact List.Perm.nil
  | cons effect rest =>
      have here := operations_perm depth effect
      have others := program_perm depth rest
      rw [program, layersUnder, List.flatMap_append, List.cons_append, filterMap_operation_cons]
      simp only [List.filterMap_append] at others ⊢
      refine (here.append others).trans ?_
      rw [List.append_assoc]
      exact List.Perm.append_left _ (List.perm_append_comm_assoc _ _ _)
end

theorem isSome_operation {effect : Effect} (known : effect.backdrop? ≠ some .unknown) :
    effect.operation?.isSome := by
  cases effect with
  | backdrop source => cases source <;> first | rfl | exact absurd rfl known
  | acrylic source => cases source <;> first | rfl | exact absurd rfl known
  | _ => rfl

theorem backdrop_of_follower {effect : Effect} (follows : effect.isSource = false) : effect.backdrop? = none := by
  cases effect <;> first | rfl | cases follows

theorem operations_everywhere_perm (effects : List Effect) :
    (program effects).Perm ((everywhere effects).filterMap operation?) :=
  program_perm 0 effects

/-- No effect of an accepted pipeline shows an unknown backdrop. -/
theorem isSome_operation_of_accepted {options : CompileOptions} {effects : List Effect} {shape : Shape}
    (accepted : validate options effects = .ok shape) {effect : Effect} (member : effect ∈ everywhere effects) :
    effect.operation?.isSome := by
  obtain ⟨layer, inTree, inLayer⟩ := List.mem_flatMap.mp member
  obtain ⟨first, rest, same, starts, followers⟩ := wellFormed_of_validate accepted layer inTree
  rw [same] at inLayer
  rcases List.mem_cons.mp inLayer with rfl | later
  · exact isSome_operation starts.2
  · exact isSome_operation (by simp [backdrop_of_follower (followers effect later)])

theorem length_program {options : CompileOptions} {effects : List Effect} {shape : Shape}
    (accepted : validate options effects = .ok shape) : (program effects).length = (everywhere effects).length := by
  rw [(operations_everywhere_perm effects).length_eq, List.length_filterMap_eq_countP, List.countP_eq_length]
  exact fun _ => isSome_operation_of_accepted accepted

end Effect

/-- Why an execution stopped before its end. -/
inductive Stop where
  | refused (error : Error)
  /-- The stack did not hold the nodes a call needs. -/
  | starved

/-- The call an operation makes of the nodes on top of a stack, and the stack below them. -/
def Operation.take? : Operation → List ν → Option (Call ν × List ν)
  | .source start, stack => some (.source start, stack)
  | .transform step, chain :: below => some (.transform step chain, below)
  | .blend mode placement, branch :: chain :: below => some (.blend mode placement chain branch, below)
  | _, _ => none

def Action.refusing (action : Action σ α) : ExceptT Stop (StateM σ) α := action.adapt Stop.refused

/-- Makes the calls of a program one after the other, each on the stack that the one before left, up to the
first that is refused. -/
def execute (backend : Backend σ ν) : List Operation → List ν → ExceptT Stop (StateM σ) (List ν)
  | [], stack => pure stack
  | operation :: rest, stack =>
      match operation.take? stack with
      | none => throw .starved
      | some (call, below) => do
          let node ← Action.refusing (backend call)
          execute backend rest (node :: below)

/-- A backend that also writes down the calls it is asked to answer, in order. -/
def Backend.logged (backend : Backend σ ν) : Backend (σ × List (Call ν)) ν := fun call =>
  ExceptT.mk fun (state, log) =>
    let (answer, after) := (backend call).run.run state
    (answer, after, log ++ [call])

namespace Action

@[simp] theorem refusing_pure (value : α) : refusing (pure value : Action σ α) = pure value := by
  rfl

@[simp] theorem refusing_bind (first : Action σ α) (next : α → Action σ β) :
    refusing (first >>= next) = refusing first >>= fun value => refusing (next value) := by
  apply ExceptT.ext
  simp only [refusing, ExceptT.run_adapt, ExceptT.run_bind, map_bind, bind_map_left]
  apply bind_congr
  intro answer
  cases answer <;> rfl

@[simp] theorem ofExcept_ok (value : α) : (ofExcept (.ok value) : Action σ α) = pure value := rfl

end Action

section
variable (backend : Backend σ ν)

theorem execute_source (start : Source) (next : List Operation) (stack : List ν) :
    execute backend (.source start :: next) stack =
      Action.refusing (backend (.source start)) >>= fun node => execute backend next (node :: stack) := rfl

theorem execute_transform (step : Transform) (next : List Operation) (chain : ν) (stack : List ν) :
    execute backend (.transform step :: next) (chain :: stack) =
      Action.refusing (backend (.transform step chain)) >>= fun node => execute backend next (node :: stack) := rfl

theorem execute_blend (mode : BlendMode) (placement : Placement) (next : List Operation) (chain branch : ν)
    (stack : List ν) :
    execute backend (.blend mode placement :: next) (branch :: chain :: stack) =
      Action.refusing (backend (.blend mode placement chain branch)) >>= fun node =>
        execute backend next (node :: stack) := rfl

mutual
theorem execute_build {limit depth : Nat} (effects : List Effect) {shape : Shape}
    (accepted : Shape.ofList limit depth effects = .ok shape) (next : List Operation) (stack : List ν) :
    execute backend (Effect.program effects ++ next) stack =
      Action.refusing (build backend effects) >>= fun node => execute backend next (node :: stack) := by
  cases effects with
  | nil =>
      have fits := ((Shape.ofList_eq_ok limit depth [] shape).mp accepted).1
      obtain ⟨⟨_, _, nonempty, _⟩, _⟩ := fits ⟨depth, []⟩ (by simp [Effect.layers])
      cases nonempty
  | cons first rest =>
      obtain ⟨_, starts, others, followed, _⟩ := Shape.ofList_cons.mp accepted
      obtain ⟨call, source, operations⟩ := starts.source
      rw [Effect.program, operations, List.append_assoc, List.singleton_append, execute_source]
      simp only [build, source, Action.ofExcept_ok, pure_bind, Action.refusing_bind, bind_assoc]
      apply bind_congr
      intro node
      exact execute_extend rest followed node next stack

theorem execute_extend {limit depth index : Nat} (effects : List Effect) {shape : Shape}
    (accepted : Shape.ofRest limit depth index effects = .ok shape) (chain : ν) (next : List Operation)
    (stack : List ν) :
    execute backend (Effect.program effects ++ next) (chain :: stack) =
      Action.refusing (extend backend index chain effects) >>= fun node => execute backend next (node :: stack) := by
  cases effects with
  | nil => simp [Effect.program, extend]
  | cons effect rest =>
      obtain ⟨here, wrapped, others, followed, _⟩ := Shape.ofRest_cons.mp accepted
      simp only [Effect.program, List.append_assoc, extend, Action.refusing_bind, bind_assoc]
      rw [execute_wrap effect wrapped chain]
      apply bind_congr
      intro node
      exact execute_extend rest followed node next stack

theorem execute_wrap {limit depth index : Nat} (effect : Effect) {shape : Shape}
    (accepted : Shape.ofTransform limit depth index effect = .ok shape) (chain : ν) (next : List Operation)
    (stack : List ν) :
    execute backend (effect.operations ++ next) (chain :: stack) =
      Action.refusing (wrap backend index chain effect) >>= fun node => execute backend next (node :: stack) := by
  cases effect with
  | blend branch mode placement =>
      obtain ⟨inner, built, _⟩ := Shape.ofTransform_blend.mp accepted
      simp only [Effect.operations, List.append_assoc, wrap, Action.refusing_bind, bind_assoc]
      rw [execute_build branch built]
      apply bind_congr
      intro node
      exact execute_blend backend mode placement next chain node stack
  | _ =>
      obtain ⟨follows, _⟩ := (Shape.ofTransform_single rfl).mp accepted
      obtain ⟨step, transform, operations⟩ := Effect.transform_of_single follows rfl
      simp only [wrap, transform]
      rw [operations, List.singleton_append, execute_transform]
end

theorem run_refusing_bind (action : Action σ α) (next : α → ExceptT Stop (StateM σ) β) (state : σ) :
    (Action.refusing action >>= next).run.run state =
      match action.run.run state with
      | (.ok value, after) => (next value).run.run after
      | (.error error, after) => (.error (.refused error), after) := by
  simp only [run_run_bind, Action.refusing, ExceptT.run_adapt, StateT.run_map]
  rcases action.run.run state with ⟨answer, after⟩
  cases answer <;> rfl

/-- An execution that was refused ends with what the backend answered to its last call. -/
theorem exists_call_of_refused (program : List Operation) (stack : List ν) {before after : σ} {error : Error}
    (stopped : (execute backend program stack).run.run before = (.error (.refused error), after)) :
    ∃ call during, (backend call).run.run during = (.error error, after) := by
  induction program generalizing stack before with
  | nil => cases stopped
  | cons operation rest ih =>
      unfold execute at stopped
      split at stopped
      · cases stopped
      · rename_i call below taken
        rw [run_refusing_bind] at stopped
        split at stopped
        · exact ih _ stopped
        · rename_i refusal state answered
          cases stopped
          exact ⟨call, before, answered⟩

end

theorem compile_of_accepted {options : CompileOptions} {effects : List Effect} {shape : Shape}
    (accepted : validate options effects = .ok shape) (backend : Backend σ ν) :
    compile options backend effects = build backend effects := by
  simp only [compile, accepted, Action.ofExcept_ok, pure_bind]

theorem run_compile_of_rejected {options : CompileOptions} {effects : List Effect} {error : Error}
    (rejected : validate options effects = .error error) (backend : Backend σ ν) (state : σ) :
    (compile options backend effects).run.run state = (.error error, state) := by
  simp only [compile, rejected, run_run_bind]
  rfl

/-- The program of an accepted pipeline leaves the node of the pipeline alone on the stack. -/
theorem execute_program {options : CompileOptions} {effects : List Effect} {shape : Shape}
    (accepted : validate options effects = .ok shape) (backend : Backend σ ν) :
    execute backend (Effect.program effects) [] =
      (fun node => [node]) <$> Action.refusing (compile options backend effects) := by
  have built := execute_build backend effects accepted [] []
  rw [List.append_nil] at built
  rw [built, compile_of_accepted accepted, map_eq_pure_bind]
  rfl

/-- Once a pipeline is accepted, compiling it fails only with what the backend answers to its last call. -/
theorem exists_call_of_compile_error {options : CompileOptions} {effects : List Effect} {shape : Shape}
    (accepted : validate options effects = .ok shape) (backend : Backend σ ν) {before after : σ} {error : Error}
    (failed : (compile options backend effects).run.run before = (.error error, after)) :
    ∃ call during, (backend call).run.run during = (.error error, after) := by
  apply exists_call_of_refused backend (Effect.program effects) []
  rw [execute_program accepted backend, map_eq_pure_bind, run_refusing_bind, failed]

/-- A pipeline that is not accepted reaches no backend.  An accepted one is compiled by executing its program on
the empty stack: every backend answers the same calls in the same order, ends in the same state, and leaves the
node of the pipeline, or the error with which it refused a call. -/
theorem compile_eq_execute (options : CompileOptions) (backend : Backend σ ν) (effects : List Effect) :
    (∀ error, validate options effects = .error error →
      ∀ state, (compile options backend effects).run.run state = (.error error, state)) ∧
    ∀ shape, validate options effects = .ok shape →
      execute backend (Effect.program effects) [] =
        (fun node => [node]) <$> Action.refusing (compile options backend effects) ∧
      execute backend.logged (Effect.program effects) [] =
        (fun node => [node]) <$> Action.refusing (compile options backend.logged effects) ∧
      ∀ before error after, (compile options backend effects).run.run before = (.error error, after) →
        ∃ call during, (backend call).run.run during = (.error error, after) := by
  refine ⟨?_, ?_⟩
  · intro error rejected state
    simp [compile, rejected, Action.ofExcept]
    rfl
  · intro shape accepted
    refine ⟨execute_program accepted backend, execute_program accepted backend.logged, ?_⟩
    intro before error after failed
    apply exists_call_of_refused backend (Effect.program effects) []
    rw [execute_program accepted backend, map_eq_pure_bind, run_refusing_bind, failed]

end VisualEffects
