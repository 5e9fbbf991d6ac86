import VisualEffects.Pipeline.Compile
import VisualEffects.Graph.Basic

namespace VisualEffects

/-! Reading a list of effects back from a recorded graph.

A node without inputs is the source of a list, a node with one input appends a transform to the list of that
input, and a node with two inputs appends a blend, the list of the second input being its branch.  A host
acrylic has no blur once it is recorded, so a list is read back with the blur of its host acrylics at 0.
-/

def Source.effect : Source → Effect
  | backdrop => .backdrop .window
  | hostBackdrop => .backdrop .host
  | solidColor color => .solidColor color
  | image uri dpi cache => .image uri dpi cache
  | tiles uri dpi cache => .tile uri dpi cache
  | backdropAcrylic tint mix amount texture => .acrylic .window tint mix amount texture
  | hostBackdropAcrylic tint mix texture => .acrylic .host tint mix 0 texture

def Transform.effect : Transform → Effect
  | opacity value => .opacity value
  | luminanceToAlpha => .luminance
  | tint color amount => .tint color amount
  | blur amount => .blur amount
  | saturation value => .saturation value

namespace Effect

mutual
/-- An effect with the blur of host acrylics set to 0, in its branch too. -/
def forgetHostBlur : Effect → Effect
  | .acrylic .host color mix _ texture => .acrylic .host color mix 0 texture
  | .blend branch mode placement => .blend (forgetHostBlurs branch) mode placement
  | effect => effect

def forgetHostBlurs : List Effect → List Effect
  | [] => []
  | effect :: rest => forgetHostBlur effect :: forgetHostBlurs rest
end

theorem effect_of_source {effect : Effect} {call : Source} (source : effect.source = .ok call) :
    call.effect = effect.forgetHostBlur := by
  cases effect with
  | backdrop shown => cases shown <;> cases source <;> rfl
  | acrylic shown => cases shown <;> cases source <;> rfl
  | solidColor | image | tile => cases source; rfl
  | _ => cases source

end Effect

namespace Graph

/-- A graph that has every node of another under the same identifier. -/
def Extends (small large : Graph) : Prop := ∀ id call, small.node? id = some call → large.node? id = some call

theorem Extends.refl (graph : Graph) : graph.Extends graph := fun _ _ found => found

theorem Extends.trans {first second third : Graph} (earlier : first.Extends second) (later : second.Extends third) :
    first.Extends third := fun id call found => later id call (earlier id call found)

/-- What can be read back from a node. -/
inductive Reads (graph : Graph) : NodeId → List Effect → Prop
  | source (found : graph.node? node = some (.source call)) : Reads graph node [call.effect]
  | transform (found : graph.node? node = some (.transform step chain)) (earlier : Reads graph chain effects) :
      Reads graph node (effects ++ [step.effect])
  | blend (found : graph.node? node = some (.blend mode placement chain branch))
      (earlier : Reads graph chain effects) (inner : Reads graph branch branchEffects) :
      Reads graph node (effects ++ [.blend branchEffects mode placement])

theorem Reads.unique {graph : Graph} {id : NodeId} {left right : List Effect} (leftReads : graph.Reads id left)
    (rightReads : graph.Reads id right) : left = right := by
  induction leftReads generalizing right with
  | source found =>
      cases rightReads with
      | source other => cases found.symm.trans other; rfl
      | transform other | blend other => cases found.symm.trans other
  | transform found earlier earlierIH =>
      cases rightReads with
      | transform other otherEarlier =>
          cases found.symm.trans other
          rw [earlierIH otherEarlier]
      | source other | blend other => cases found.symm.trans other
  | blend found earlier inner earlierIH innerIH =>
      cases rightReads with
      | blend other otherEarlier otherInner =>
          cases found.symm.trans other
          rw [earlierIH otherEarlier, innerIH otherInner]
      | source other | transform other => cases found.symm.trans other

theorem Reads.mono {small large : Graph} (grows : small.Extends large) {id : NodeId} {effects : List Effect}
    (reads : small.Reads id effects) : large.Reads id effects := by
  induction reads with
  | source found => exact .source (grows _ _ found)
  | transform found _ earlierIH => exact .transform (grows _ _ found) earlierIH
  | blend found _ _ earlierIH innerIH => exact .blend (grows _ _ found) earlierIH innerIH

end Graph

/-- A backend that answers a call with the identifier under which it is kept from then on, whatever fails
before or after. -/
structure Backend.Keeps (backend : Backend σ NodeId) (graph : σ → Graph) : Prop where
  grows : ∀ call state, (graph state).Extends (graph ((backend call).run.run state).2)
  stores : ∀ {call state id after}, (backend call).run.run state = (.ok id, after) →
    (graph after).node? id = some call

theorem Graph.extends_push (graph : Graph) (call : Call NodeId) : graph.Extends ⟨graph.nodes.push call⟩ := by
  intro node kept found
  obtain ⟨bound, stored⟩ := Array.getElem?_eq_some_iff.mp found
  simp only [Graph.node?, Array.getElem?_push, Nat.ne_of_lt bound, if_false]
  exact found

theorem Graph.record_keeps : Backend.Keeps Graph.record id where
  grows call graph := by
    rw [Graph.run_record]
    split
    · exact graph.extends_push call
    · exact Graph.Extends.refl graph
  stores := by
    intro call graph node after recorded
    rw [Graph.run_record] at recorded
    split at recorded <;> cases recorded
    simp [Graph.node?, Graph.size]

/-- What is left behind by building a list: every node that was there before, and, unless a call was refused, a
node from which the list can be read. -/
def Graph.Built (graph : σ → Graph) (effects : List Effect) (before : σ) (outcome : Except Error NodeId × σ) : Prop :=
  (graph before).Extends (graph outcome.2) ∧ ∀ node, outcome.1 = .ok node → (graph outcome.2).Reads node effects

section
variable {graph : σ → Graph} {backend : Backend σ NodeId} {before : σ} {earlier effects : List Effect}

theorem Graph.Built.bind {action : Action σ NodeId} {next : NodeId → Action σ NodeId}
    (first : Graph.Built graph earlier before (action.run.run before))
    (later : ∀ node after, (graph before).Extends (graph after) → (graph after).Reads node earlier →
      Graph.Built graph effects after ((next node).run.run after)) :
    Graph.Built graph effects before ((action >>= next).run.run before) := by
  rw [run_run_bind]
  generalize action.run.run before = outcome at first ⊢
  obtain ⟨grows, reads⟩ := first
  obtain ⟨error | node, after⟩ := outcome
  · exact ⟨grows, fun _ failed => nomatch failed⟩
  · obtain ⟨growsLater, readsLater⟩ := later node after grows (reads node rfl)
    exact ⟨grows.trans growsLater, readsLater⟩

theorem Graph.Built.call (keeps : backend.Keeps graph) {call : Call NodeId}
    (reads : ∀ node after, (graph before).Extends after → after.node? node = some call → after.Reads node effects) :
    Graph.Built graph effects before ((backend call).run.run before) := by
  have grows := keeps.grows call before
  refine ⟨grows, ?_⟩
  intro node answered
  exact reads node _ grows (keeps.stores (Prod.ext answered rfl))

theorem Graph.Built.refused (error : Error) : Graph.Built graph effects before (.error error, before) :=
  ⟨Graph.Extends.refl _, fun _ failed => nomatch failed⟩

mutual
theorem build_built (keeps : backend.Keeps graph) (before : σ) (effects : List Effect) :
    Graph.Built graph (Effect.forgetHostBlurs effects) before ((build backend effects).run.run before) := by
  cases effects with
  | nil => exact Graph.Built.refused .emptyPipeline
  | cons first rest =>
      cases source : first.source with
      | error error =>
          simp only [build, source]
          exact Graph.Built.refused error
      | ok call =>
          simp only [build, source, Action.ofExcept, pure_bind]
          refine Graph.Built.bind (Graph.Built.call keeps fun node after _ found => .source found) ?_
          intro node after _ reads
          have extended := extend_built keeps 1 node after rest reads
          rwa [Effect.effect_of_source source] at extended

theorem extend_built (keeps : backend.Keeps graph) (index : Nat) (chain : NodeId) (before : σ)
    (effects : List Effect) {earlier : List Effect} (reads : (graph before).Reads chain earlier) :
    Graph.Built graph (earlier ++ Effect.forgetHostBlurs effects) before
      ((extend backend index chain effects).run.run before) := by
  cases effects with
  | nil =>
      refine ⟨Graph.Extends.refl _, ?_⟩
      intro node same
      cases same
      rw [Effect.forgetHostBlurs, List.append_nil]
      exact reads
  | cons effect rest =>
      refine Graph.Built.bind (wrap_built keeps index chain before effect reads) ?_
      intro node after _ wrapped
      have extended := extend_built keeps (index + 1) node after rest wrapped
      rwa [List.append_assoc] at extended

theorem wrap_built (keeps : backend.Keeps graph) (index : Nat) (chain : NodeId) (before : σ) (effect : Effect)
    {earlier : List Effect} (reads : (graph before).Reads chain earlier) :
    Graph.Built graph (earlier ++ [effect.forgetHostBlur]) before
      ((wrap backend index chain effect).run.run before) := by
  cases effect with
  | blend branch mode placement =>
      refine Graph.Built.bind (build_built keeps before branch) ?_
      intro branchNode middle grows inner
      refine Graph.Built.call keeps ?_
      intro node after growsLater found
      exact .blend found (reads.mono (grows.trans growsLater)) (inner.mono growsLater)
  | opacity | luminance | tint | blur | saturation =>
      refine Graph.Built.call keeps ?_
      intro node after grows found
      exact .transform found (reads.mono grows)
  | _ => exact Graph.Built.refused _
end

end

end VisualEffects
