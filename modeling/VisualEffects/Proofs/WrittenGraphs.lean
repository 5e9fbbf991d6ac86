import VisualEffects.Graph.Json
import VisualEffects.Proofs.Entries
import VisualEffects.Proofs.Unambiguous

namespace VisualEffects

/-! Written graphs can be told apart.

A node is written with the name of its operation first, which decides what its parameters are, and its inputs last.
So whoever reads the text of a graph knows every call that it recorded.
-/

open Json (Choice LawfulChoice Value Number)

namespace Json

/-- What is read back is written in one way only. -/
theorem write_inj {ε α β : Type} {write : α → β} {read : β → Except ε α} (back : ∀ value, read (write value) = .ok value)
    {first second : α} : write first = write second ↔ first = second := by
  refine ⟨fun same => ?_, congrArg write⟩
  have read := back first
  rw [same, back] at read
  exact (Except.ok.inj read).symm

theorem Choice.toValue_inj {α : Type} [Choice α] [LawfulChoice α] {first second : α} :
    Choice.toValue first = Choice.toValue second ↔ first = second :=
  write_inj Choice.readValue_toValue

namespace Value

@[simp] theorem numbers_optional_text (content : Option String) : (optional .text content).numbers = [] := by
  cases content <;> rfl

theorem optional_text_inj {first second : Option String} :
    optional .text first = optional .text second ↔ first = second := by
  cases first <;> cases second <;> simp [optional]

theorem real_inj {x y : Float} (finite : x.isFinite = true) (finite' : y.isFinite = true) (same : real x = real y) :
    x = y := by
  rw [real, real, if_pos finite, if_pos finite'] at same
  cases same
  rfl

end Value

end Json

theorem Color.toValue_inj {color other : Color} : color.toValue = other.toValue ↔ color = other :=
  Json.write_inj Color.readValue_toValue

def Source.amounts : Source → List Float
  | backdropAcrylic _ mix amount _ => [mix, amount]
  | hostBackdropAcrylic _ mix _ => [mix]
  | backdrop | hostBackdrop | solidColor _ | image _ _ _ | tiles _ _ _ => []

def Transform.amounts : Transform → List Float
  | opacity value | tint _ value | blur value | saturation value => [value]
  | luminanceToAlpha => []

namespace Operation

def amounts : Operation → List Float
  | source start => start.amounts
  | transform step => step.amounts
  | blend _ _ => []

theorem numbers_parameters (operation : Operation) :
    operation.parameters.flatMap (·.2.numbers) = operation.amounts.flatMap fun x => (Value.real x).numbers := by
  cases operation with
  | source start =>
      cases start
      case image | tiles => rfl
      all_goals simp [parameters, amounts, Source.parameters, Source.amounts, Value.numbers, Color.toValue]
  | transform step =>
      cases step <;> simp [parameters, amounts, Transform.parameters, Transform.amounts, Value.numbers, Color.toValue]
  | blend mode placement => rfl

end Operation

section
open Json.Value (real_inj)

theorem Source.eq_of_written {first second : Source} (finite : ∀ x ∈ first.amounts, x.isFinite = true)
    (finite' : ∀ x ∈ second.amounts, x.isFinite = true) (named : first.name = second.name)
    (same : first.parameters = second.parameters) : first = second := by
  cases first <;> cases second <;> simp only [name, String.reduceEq] at named
  case backdrop.backdrop | hostBackdrop.hostBackdrop => rfl
  case solidColor.solidColor =>
    simpa [parameters, Color.toValue_inj] using same
  case image.image uri dpi cache uri' dpi' cache' | tiles.tiles uri dpi cache uri' dpi' cache' =>
    have fields : [("uri", Value.text uri), ("dpi_mode", Choice.toValue dpi), ("cache_mode", Choice.toValue cache)] =
      [("uri", Value.text uri'), ("dpi_mode", Choice.toValue dpi'), ("cache_mode", Choice.toValue cache')] := same
    simpa [Choice.toValue_inj] using fields
  case backdropAcrylic.backdropAcrylic =>
    simp only [parameters, List.cons.injEq, Prod.mk.injEq, true_and, and_true, Color.toValue_inj,
      Value.optional_text_inj] at same
    simp only [amounts, List.forall_mem_cons] at finite finite'
    obtain ⟨rfl, mix, amount, rfl⟩ := same
    rw [real_inj finite.1 finite'.1 mix, real_inj finite.2.1 finite'.2.1 amount]
  case hostBackdropAcrylic.hostBackdropAcrylic =>
    simp only [parameters, List.cons.injEq, Prod.mk.injEq, true_and, and_true, Color.toValue_inj,
      Value.optional_text_inj] at same
    simp only [amounts, List.forall_mem_cons] at finite finite'
    obtain ⟨rfl, mix, rfl⟩ := same
    rw [real_inj finite.1 finite'.1 mix]

theorem Transform.eq_of_written {first second : Transform} (finite : ∀ x ∈ first.amounts, x.isFinite = true)
    (finite' : ∀ x ∈ second.amounts, x.isFinite = true) (named : first.name = second.name)
    (same : first.parameters = second.parameters) : first = second := by
  cases first <;> cases second <;> simp only [name, String.reduceEq] at named <;>
    simp only [parameters, List.cons.injEq, Prod.mk.injEq, true_and, and_true, Color.toValue_inj] at same <;>
    simp only [amounts, List.forall_mem_cons] at finite finite'
  case luminanceToAlpha.luminanceToAlpha => rfl
  case tint.tint =>
    obtain ⟨rfl, amount⟩ := same
    rw [real_inj finite.1 finite'.1 amount]
  all_goals rw [real_inj finite.1 finite'.1 same]

end

theorem Operation.eq_of_written {first second : Operation} (finite : ∀ x ∈ first.amounts, x.isFinite = true)
    (finite' : ∀ x ∈ second.amounts, x.isFinite = true) (named : first.name = second.name)
    (same : first.parameters = second.parameters) : first = second := by
  match first, second with
  | .source _, .source _ => exact congrArg source (Source.eq_of_written finite finite' named same)
  | .transform _, .transform _ => exact congrArg transform (Transform.eq_of_written finite finite' named same)
  | .blend _ _, .blend _ _ =>
      simpa [parameters, Choice.toValue_inj] using same
  | .source start, .transform step | .transform step, .source start =>
      cases start <;> cases step <;> simp [name, Source.name, Transform.name] at named
  | .source start, .blend _ _ | .blend _ _, .source start => cases start <;> simp [name, Source.name] at named
  | .transform step, .blend _ _ | .blend _ _, .transform step => cases step <;> simp [name, Transform.name] at named

/-- An operation with the nodes it is recorded with, as many as there may be. -/
structure Recorded where
  operation : Operation
  inputs : List NodeId

namespace Recorded

def toValue (node : Recorded) : Value :=
  .object (("op", .text node.operation.name) :: node.operation.parameters ++
    [("inputs", .list (node.inputs.map .natural))])

def amounts (nodes : List Recorded) : List Float := nodes.flatMap (·.operation.amounts)

/-- Nodes in the form in which a graph is written. -/
def written (nodes : List Recorded) : Value := .object [("nodes", .list (nodes.map toValue))]

theorem toValue_inj {node other : Recorded} (finite : ∀ x ∈ node.operation.amounts, x.isFinite = true)
    (finite' : ∀ x ∈ other.operation.amounts, x.isFinite = true) (same : node.toValue = other.toValue) :
    node = other := by
  obtain ⟨operation, inputs⟩ := node
  obtain ⟨operation', inputs'⟩ := other
  simp only [toValue, List.cons_append, Value.object.injEq, List.cons.injEq, Prod.mk.injEq, Value.text.injEq,
    true_and] at same
  obtain ⟨named, same⟩ := same
  obtain ⟨parameters, inputs⟩ := List.append_inj' same rfl
  obtain rfl := Operation.eq_of_written finite finite' named parameters
  simp only [List.cons.injEq, Prod.mk.injEq, Value.list.injEq, true_and, and_true] at inputs
  have naturals : Function.Injective Value.natural := fun n m same => by
    simpa [Value.natural] using same
  rw [List.map_injective_iff.mpr naturals inputs]

theorem written_inj {first second : List Recorded} (finite : ∀ x ∈ amounts first, x.isFinite = true)
    (finite' : ∀ x ∈ amounts second, x.isFinite = true) (same : written first = written second) : first = second := by
  simp only [written, Value.object.injEq, List.cons.injEq, Prod.mk.injEq, Value.list.injEq, true_and, and_true] at same
  induction first generalizing second with
  | nil => exact (List.map_eq_nil_iff.mp same.symm).symm
  | cons node rest ih =>
      cases second with
      | nil => cases same
      | cons node' rest' =>
          simp only [amounts, List.flatMap_cons, List.forall_mem_append] at finite finite'
          obtain ⟨here, there⟩ := List.cons.inj same
          rw [toValue_inj finite.1 finite'.1 here, ih finite.2 finite'.2 there]

section
variable {nodes : List Recorded} (finite : ∀ x ∈ amounts nodes, x.isFinite = true) {n : Number}
  (inside : n ∈ (written nodes).numbers)
include finite inside

/-- The numbers of a written graph are the positions of its nodes and its amounts. -/
theorem mem_numbers_written :
    (∃ id : Nat, n = .integer id) ∨ ∃ x ∈ amounts nodes, x.isFinite = true ∧ n = .real x := by
  simp only [written, Value.numbers, Value.numbersMembers, Value.numbersItems_eq, List.append_nil, List.mem_flatMap,
    List.mem_map] at inside
  obtain ⟨_, ⟨node, known, rfl⟩, inside⟩ := inside
  simp only [toValue, Value.numbers, Value.numbersMembers_eq, Value.numbersItems_eq, List.flatMap_append,
    List.flatMap_cons, List.flatMap_nil, List.nil_append, List.append_nil, Operation.numbers_parameters,
    List.flatMap_map, List.mem_append, List.mem_flatMap] at inside
  rcases inside with ⟨x, amount, inside⟩ | ⟨id, _, inside⟩
  · have amount : x ∈ amounts nodes := List.mem_flatMap.mpr ⟨node, known, amount⟩
    rw [Value.real, if_pos (finite x amount)] at inside
    exact .inr ⟨x, amount, finite x amount, List.mem_singleton.mp inside⟩
  · exact .inl ⟨id, List.mem_singleton.mp inside⟩

theorem isWritten_of_mem_numbers : n.IsWritten := by
  rcases mem_numbers_written finite inside with ⟨id, rfl⟩ | ⟨x, _, finite, rfl⟩
  · trivial
  · exact finite

end

theorem toldApart {first second : List Recorded} (finite : ∀ x ∈ amounts first, x.isFinite = true)
    (finite' : ∀ x ∈ amounts second, x.isFinite = true)
    (distinct : ∀ x ∈ amounts first, ∀ y ∈ amounts second, (Number.real x).render = (Number.real y).render → x = y) :
    Value.ToldApart (written first).numbers (written second).numbers := by
  refine ⟨fun _ => isWritten_of_mem_numbers finite, fun _ => isWritten_of_mem_numbers finite', ?_⟩
  intro n left m right same
  -- a position has digits only, and an amount has a point or an exponent
  rcases mem_numbers_written finite left with ⟨id, rfl⟩ | ⟨x, amount, finite, rfl⟩ <;>
    rcases mem_numbers_written finite' right with ⟨id', rfl⟩ | ⟨y, amount', finite', rfl⟩
  · rw [Number.render_natural_inj same]
  · exact absurd same (Number.render_natural_ne_real finite')
  · exact absurd same.symm (Number.render_natural_ne_real finite)
  · rw [distinct x amount y amount' same]

end Recorded

namespace Graph

def recorded (graph : Graph) : List Recorded := graph.nodes.toList.map fun call => ⟨call.operation, call.inputs⟩

theorem toValue_eq_written (graph : Graph) : graph.toValue = Recorded.written graph.recorded := by
  simp only [toValue, Recorded.written, recorded, List.map_map]
  rfl

theorem recorded_inj {graph other : Graph} (same : graph.recorded = other.recorded) : graph = other := by
  obtain ⟨⟨calls⟩⟩ := graph
  obtain ⟨⟨calls'⟩⟩ := other
  have call : Function.Injective fun call : Call NodeId => (⟨call.operation, call.inputs⟩ : Recorded) := by
    intro call call' same
    cases call <;> cases call' <;> simp_all [Call.operation, Call.inputs]
  have calls := List.map_injective_iff.mpr call same
  exact congrArg (fun calls => Graph.mk ⟨calls⟩) calls

/-- Graphs whose amounts are finite are the same exactly if they are written the same, on one line or on many. -/
theorem written_eq_iff {first second : List Recorded} (finite : ∀ x ∈ Recorded.amounts first, x.isFinite = true)
    (finite' : ∀ x ∈ Recorded.amounts second, x.isFinite = true)
    (distinct : ∀ x ∈ Recorded.amounts first, ∀ y ∈ Recorded.amounts second,
      (Number.real x).render = (Number.real y).render → x = y) :
    ((Recorded.written first).line = (Recorded.written second).line ↔ first = second) ∧
    ((Recorded.written first).page = (Recorded.written second).page ↔ first = second) ∧
    ∀ graph other : Graph, graph.recorded = first → other.recorded = second →
      (graph.toValue.line = other.toValue.line ↔ graph = other) ∧
      (graph.toValue.page = other.toValue.page ↔ graph = other) := by
  have apart := Recorded.toldApart finite finite' distinct
  have line : (Recorded.written first).line = (Recorded.written second).line ↔ first = second := by
    rw [Value.line_inj apart]
    exact ⟨Recorded.written_inj finite finite', congrArg _⟩
  have page : (Recorded.written first).page = (Recorded.written second).page ↔ first = second := by
    rw [Value.page_inj apart]
    exact ⟨Recorded.written_inj finite finite', congrArg _⟩
  refine ⟨line, page, ?_⟩
  rintro graph other rfl rfl
  rw [toValue_eq_written, toValue_eq_written, line, page]
  have same : graph.recorded = other.recorded ↔ graph = other := ⟨recorded_inj, congrArg recorded⟩
  exact ⟨same, same⟩

theorem written_ne_of_texture :
    (mk #[.source (.hostBackdropAcrylic .black 0.5 none), .transform (.opacity 0.25) 0]).toValue.line ≠
      (mk #[.source (.hostBackdropAcrylic .black 0.5 (some "null")), .transform (.opacity 0.25) 0]).toValue.line := by
  rw [ne_eq, ((written_eq_iff (by decide +kernel) (by decide +kernel) (by decide +kernel)).2.2 _ _ rfl rfl).1]
  decide +kernel

end Graph

end VisualEffects
