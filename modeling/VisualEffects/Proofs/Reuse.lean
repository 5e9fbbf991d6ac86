import VisualEffects.Proofs.Sharing

namespace VisualEffects.Brush

/-! Nodes that a brush answers with more than once.

A brush is connected, disconnected and given other effects in any order, and every connect may meet a backend of
its own that refuses other calls than before.  What a step answers follows from the steps before it: a brush holds
the node that its last successful compilation made, unless it handed that node back or dropped it since.
-/

/-- What is done with a brush; the backend is the one that the connect finds. -/
inductive Step (σ ν : Type) where
  | connect (backend : Backend σ ν)
  | disconnect
  | setEffects (pipeline : Pipeline)

namespace Step

def isConnect : Step σ ν → Bool
  | .connect _ => true
  | _ => false

/-- The pipeline after a step. -/
def replace (pipeline : Pipeline) : Step σ ν → Pipeline
  | .setEffects other => other
  | _ => pipeline

end Step

inductive Reply (ν : Type) where
  | connected (answer : Except Error ν)
  | handedBack (node : Option ν)
  | done

/-- One step of a history, with the brush and the state of the backend before and after it. -/
structure Entry (σ ν : Type) where
  step : Step σ ν
  before : Brush ν × σ
  reply : Reply ν
  after : Brush ν × σ

namespace Entry

/-- Whether a step compiled this node, because the brush had none. -/
def Compiles (entry : Entry σ ν) (node : ν) : Prop :=
  entry.step.isConnect = true ∧ entry.before.1.compiled = none ∧ entry.reply = .connected (.ok node)

/-- Whether a step answers with this node. -/
def Gives (entry : Entry σ ν) (node : ν) : Prop :=
  entry.reply = .connected (.ok node) ∨ entry.reply = .handedBack (some node)

end Entry

def observe (before : Brush ν × σ) : Step σ ν → Entry σ ν
  | .connect backend =>
      let ((answer, brush), state) := (before.1.connect backend).run before.2
      ⟨.connect backend, before, .connected answer, (brush, state)⟩
  | .disconnect => ⟨.disconnect, before, .handedBack before.1.disconnect.1, (before.1.disconnect.2, before.2)⟩
  | .setEffects pipeline => ⟨.setEffects pipeline, before, .done, (before.1.setEffects pipeline, before.2)⟩

/-- What comes of steps that are done one after the other. -/
def history (before : Brush ν × σ) : List (Step σ ν) → List (Entry σ ν)
  | [] => []
  | step :: rest => observe before step :: history (observe before step).after rest

/-- The step at `origin` compiled the node, and up to the step at `position` the brush was only connected. -/
structure ComesFrom (history : List (Entry σ ν)) (position origin : Nat) (node : ν) : Prop where
  earlier : origin ≤ position
  compiled : ∃ entry, history[origin]? = some entry ∧ entry.Compiles node
  connects : ∀ entry ∈ (history.take position).drop (origin + 1), entry.step.isConnect = true

section
variable {before : Brush ν × σ} {node : ν}

theorem observe_step (before : Brush ν × σ) (step : Step σ ν) : (observe before step).step = step := by
  cases step <;> rfl

theorem observe_before (before : Brush ν × σ) (step : Step σ ν) : (observe before step).before = before := by
  cases step <;> rfl

theorem observe_connect_of_some (held : before.1.compiled = some node) (backend : Backend σ ν) :
    observe before (.connect backend) = ⟨.connect backend, before, .connected (.ok node), before⟩ := by
  simp only [observe, run_connect, held]

theorem observe_connect_of_none (empty : before.1.compiled = none) (backend : Backend σ ν) :
    observe before (.connect backend) =
      match (compile before.1.options backend before.1.pipeline.effects).run.run before.2 with
      | (.ok node, state) =>
          ⟨.connect backend, before, .connected (.ok node), ({ before.1 with compiled := some node }, state)⟩
      | (.error error, state) => ⟨.connect backend, before, .connected (.error error), (before.1, state)⟩ := by
  simp only [observe, run_connect, empty]
  rcases (compile before.1.options backend before.1.pipeline.effects).run.run before.2 with
    ⟨error | node, state⟩ <;> rfl

theorem observe_connect_outcome (empty : before.1.compiled = none) (backend : Backend σ ν) :
    let outcome := (compile before.1.options backend before.1.pipeline.effects).run.run before.2
    let entry := observe before (.connect backend)
    entry.reply = .connected outcome.1 ∧ entry.after.2 = outcome.2 ∧
      ∀ error, outcome.1 = .error error → entry.after.1 = before.1 := by
  rw [observe_connect_of_none empty]
  generalize (compile before.1.options backend before.1.pipeline.effects).run.run before.2 = outcome
  obtain ⟨error | node, state⟩ := outcome
  · exact ⟨rfl, rfl, fun _ _ => rfl⟩
  · exact ⟨rfl, rfl, fun _ failed => nomatch failed⟩

/-- After a step the brush holds the node that the step compiled, or kept the one it held. -/
theorem compiled_observe (before : Brush ν × σ) (step : Step σ ν) (node : ν) :
    (observe before step).after.1.compiled = some node ↔
      (observe before step).Compiles node ∨ step.isConnect = true ∧ before.1.compiled = some node := by
  rw [Entry.Compiles, observe_step, observe_before]
  cases step with
  | disconnect | setEffects => simp [observe, disconnect, setEffects, Step.isConnect]
  | connect backend =>
      cases held : before.1.compiled with
      | some other => simp [observe_connect_of_some held, held, Step.isConnect]
      | none =>
          rw [observe_connect_of_none held]
          rcases (compile before.1.options backend before.1.pipeline.effects).run.run before.2 with
            ⟨error | other, state⟩
          · simp [held, Step.isConnect]
          · simp [Step.isConnect]

theorem settings_observe (before : Brush ν × σ) (step : Step σ ν) :
    (observe before step).after.1.options = before.1.options ∧
      (observe before step).after.1.pipeline = step.replace before.1.pipeline := by
  cases step with
  | disconnect | setEffects => exact ⟨rfl, rfl⟩
  | connect backend =>
      cases held : before.1.compiled with
      | some other =>
          rw [observe_connect_of_some held]
          exact ⟨rfl, rfl⟩
      | none =>
          rw [observe_connect_of_none held]
          split <;> exact ⟨rfl, rfl⟩

theorem comesFrom_cons_succ {entry : Entry σ ν} {history : List (Entry σ ν)} {position origin : Nat} :
    ComesFrom (entry :: history) (position + 1) (origin + 1) node ↔ ComesFrom history position origin node :=
  ⟨fun source => ⟨Nat.le_of_succ_le_succ source.earlier, source.compiled, source.connects⟩,
    fun source => ⟨Nat.succ_le_succ source.earlier, source.compiled, source.connects⟩⟩

theorem comesFrom_cons_zero {entry : Entry σ ν} {history : List (Entry σ ν)} {position : Nat} :
    ComesFrom (entry :: history) (position + 1) 0 node ↔
      entry.Compiles node ∧ ∀ other ∈ history.take position, other.step.isConnect = true := by
  constructor
  · intro source
    obtain ⟨same, found, compiled⟩ := source.compiled
    cases found
    exact ⟨compiled, source.connects⟩
  · intro ⟨compiled, connects⟩
    exact ⟨Nat.zero_le _, ⟨entry, rfl, compiled⟩, connects⟩

theorem exists_comesFrom_cons {entry : Entry σ ν} {history : List (Entry σ ν)} {position : Nat} :
    (∃ origin < position + 1, ComesFrom (entry :: history) (position + 1) origin node) ↔
      (entry.Compiles node ∧ ∀ other ∈ history.take position, other.step.isConnect = true) ∨
        ∃ origin < position, ComesFrom history position origin node := by
  rw [← comesFrom_cons_zero, Nat.exists_lt_succ_left]
  simp only [comesFrom_cons_succ]

section
variable {steps : List (Step σ ν)} {position : Nat} {entry : Entry σ ν}

/-- Before each step the brush holds the node that was compiled last, or the one it held at the start, if since
then it was only connected. -/
theorem compiled_history (found : (history before steps)[position]? = some entry) (node : ν) :
    entry.before.1.compiled = some node ↔
      (∃ origin < position, ComesFrom (history before steps) position origin node) ∨
        (∀ other ∈ (history before steps).take position, other.step.isConnect = true) ∧
          before.1.compiled = some node := by
  induction steps generalizing before position with
  | nil => cases found
  | cons step rest ih =>
      cases position with
      | zero =>
          cases found
          simp [observe_before]
      | succ position =>
          have later := ih found
          rw [later, compiled_observe, history, exists_comesFrom_cons, List.take_succ_cons]
          simp only [List.forall_mem_cons, observe_step]
          constructor
          · intro held
            rcases held with inRest | ⟨connects, compiled | ⟨connect, atStart⟩⟩
            · exact .inl (.inr inRest)
            · exact .inl (.inl ⟨compiled, connects⟩)
            · exact .inr ⟨⟨connect, connects⟩, atStart⟩
          · intro held
            rcases held with (⟨compiled, connects⟩ | inRest) | ⟨⟨connect, connects⟩, atStart⟩
            · exact .inr ⟨connects, .inl compiled⟩
            · exact .inl inRest
            · exact .inr ⟨connects, .inr ⟨connect, atStart⟩⟩

theorem entry_history (found : (history before steps)[position]? = some entry) :
    entry = observe entry.before entry.step ∧ entry.before.1.options = before.1.options ∧
      entry.before.1.pipeline = (steps.take position).foldl Step.replace before.1.pipeline := by
  induction steps generalizing before position with
  | nil => cases found
  | cons step rest ih =>
      cases position with
      | zero =>
          cases found
          rw [observe_before, observe_step]
          exact ⟨rfl, rfl, rfl⟩
      | succ position =>
          obtain ⟨same, options, pipeline⟩ := ih found
          rw [(settings_observe before step).1] at options
          rw [(settings_observe before step).2] at pipeline
          exact ⟨same, options, pipeline⟩

/-- A step that stands between an origin and where its node is answered is a connect. -/
theorem ComesFrom.isConnect {history : List (Entry σ ν)} {origin between : Nat}
    (source : ComesFrom history position origin node) (found : history[between]? = some entry)
    (after : origin ≤ between) (before : between < position) : entry.step.isConnect = true := by
  rcases Nat.eq_or_lt_of_le after with same | later
  · obtain ⟨made, stored, compiled⟩ := source.compiled
    subst same
    cases stored.symm.trans found
    exact compiled.1
  · apply source.connects
    apply List.mem_of_getElem? (i := between - (origin + 1))
    rw [List.getElem?_drop, Nat.add_sub_cancel' later, List.getElem?_take_of_lt before]
    exact found

theorem ComesFrom.upTo {history : List (Entry σ ν)} {origin sooner : Nat}
    (source : ComesFrom history position origin node) (after : origin ≤ sooner) (before : sooner ≤ position) :
    ComesFrom history sooner origin node where
  earlier := after
  compiled := source.compiled
  connects := by
    intro entry member
    apply source.connects
    rw [List.drop_take] at member ⊢
    exact List.take_subset_take_left _ (Nat.sub_le_sub_right before _) member

end

end

section
variable {pipeline : Pipeline} {options : CompileOptions} {state : σ} {steps : List (Step σ ν)} {position : Nat}
  {entry : Entry σ ν} {node : ν}

/-- A brush that starts without a node holds exactly the one that was compiled last and only connected since. -/
theorem compiled_fresh (found : (history ({ pipeline, options }, state) steps)[position]? = some entry) :
    entry.before.1.compiled = some node ↔
      ∃ origin < position, ComesFrom (history ({ pipeline, options }, state) steps) position origin node := by
  rw [compiled_history found]
  simp

theorem ComesFrom.unique {first second : Nat} {other : ν}
    (source : ComesFrom (history ({ pipeline, options }, state) steps) position first node)
    (again : ComesFrom (history ({ pipeline, options }, state) steps) position second other) :
    first = second ∧ node = other := by
  -- A later origin would have compiled while the brush still held the node of the earlier one.
  have notBefore : ∀ {sooner later : Nat} {one two : ν},
      ComesFrom (history ({ pipeline, options }, state) steps) position sooner one →
      ComesFrom (history ({ pipeline, options }, state) steps) position later two → ¬sooner < later := by
    intro sooner later one two source again before
    obtain ⟨entry, found, _, empty, _⟩ := again.compiled
    have held := (compiled_fresh found).mpr ⟨sooner, before, source.upTo (Nat.le_of_lt before) again.earlier⟩
    rw [empty] at held
    cases held
  have same : first = second :=
    Nat.le_antisymm (Nat.le_of_not_lt (notBefore again source)) (Nat.le_of_not_lt (notBefore source again))
  subst same
  obtain ⟨entry, found, _, _, reply⟩ := source.compiled
  obtain ⟨entryAgain, foundAgain, _, _, replyAgain⟩ := again.compiled
  cases found.symm.trans foundAgain
  cases reply.symm.trans replyAgain
  exact ⟨rfl, rfl⟩

theorem exists_comesFrom_of_gives (found : (history ({ pipeline, options }, state) steps)[position]? = some entry)
    (gives : entry.Gives node) :
    ∃ origin, ComesFrom (history ({ pipeline, options }, state) steps) position origin node := by
  obtain ⟨same, _⟩ := entry_history found
  rw [Entry.Gives, same] at gives
  cases done : entry.step with
  | setEffects =>
      rw [done] at gives
      rcases gives with connected | handedBack
      · cases connected
      · cases handedBack
  | disconnect =>
      rw [done] at gives
      rcases gives with connected | handedBack
      · cases connected
      · have held : entry.before.1.compiled = some node := Reply.handedBack.inj handedBack
        obtain ⟨origin, _, source⟩ := (compiled_fresh found).mp held
        exact ⟨origin, source⟩
  | connect backend =>
      cases held : entry.before.1.compiled with
      | some other =>
          rw [done, observe_connect_of_some held] at gives
          rcases gives with connected | handedBack
          · cases connected
            obtain ⟨origin, _, source⟩ := (compiled_fresh found).mp held
            exact ⟨origin, source⟩
          · cases handedBack
      | none =>
          have connect : entry.step.isConnect = true := by rw [done]; rfl
          rw [← same] at gives
          rcases gives with connected | handedBack
          · refine ⟨position, Nat.le_refl _, ⟨entry, found, connect, held, connected⟩, ?_⟩
            intro other member
            rw [List.drop_eq_nil_of_le (Nat.le_succ_of_le (List.length_take_le _ _))] at member
            cases member
          · rw [same, done, observe_connect_of_none held] at handedBack
            split at handedBack <;> cases handedBack

theorem connect_of_comesFrom (found : (history ({ pipeline, options }, state) steps)[position]? = some entry)
    {backend : Backend σ ν} (connect : entry.step = .connect backend) {origin : Nat} (before : origin < position)
    (source : ComesFrom (history ({ pipeline, options }, state) steps) position origin node) :
    entry.reply = .connected (.ok node) ∧ entry.after = entry.before := by
  have same := (entry_history found).1
  have held := (compiled_fresh found).mpr ⟨origin, before, source⟩
  rw [connect, observe_connect_of_some held] at same
  rw [same]
  exact ⟨rfl, rfl⟩

/-- A connect that finds no node does what compiling the present pipeline does. -/
theorem connect_afresh (found : (history ({ pipeline, options }, state) steps)[position]? = some entry)
    {backend : Backend σ ν} (connect : entry.step = .connect backend)
    (nothing : ¬∃ origin < position, ∃ node,
      ComesFrom (history ({ pipeline, options }, state) steps) position origin node) :
    let present := (steps.take position).foldl Step.replace pipeline
    let outcome := (compile options backend present.effects).run.run entry.before.2
    entry.reply = .connected outcome.1 ∧ entry.after.2 = outcome.2 ∧
      ∀ error, outcome.1 = .error error →
        entry.after.1 = { pipeline := present, options := options, compiled := none } := by
  intro present outcome
  obtain ⟨same, sameOptions, samePipeline⟩ := entry_history found
  have empty : entry.before.1.compiled = none := by
    rw [Option.eq_none_iff_forall_ne_some]
    intro node held
    obtain ⟨origin, before, source⟩ := (compiled_fresh found).mp held
    exact nothing ⟨origin, before, node, source⟩
  rw [connect] at same
  obtain ⟨reply, after, failed⟩ := observe_connect_outcome empty backend
  rw [← same, sameOptions, samePipeline] at reply after failed
  refine ⟨reply, after, ?_⟩
  intro error refused
  rw [failed error refused]
  calc entry.before.1
      _ = ⟨entry.before.1.pipeline, entry.before.1.options, entry.before.1.compiled⟩ := rfl
      _ = ⟨present, options, none⟩ := by rw [samePipeline, sameOptions, empty]

/-- A step that is no connect ends what came from before it. -/
theorem ComesFrom.origin_after {replaced origin : Nat} (found : (history before steps)[replaced]? = some entry)
    (ends : entry.step.isConnect = false) (earlier : replaced < position)
    (source : ComesFrom (history before steps) position origin node) : replaced < origin := by
  rcases Nat.lt_or_ge replaced origin with later | sooner
  · exact later
  · have connect := source.isConnect found sooner earlier
    rw [ends] at connect
    cases connect

end

/-- What a brush answers follows from its history, whatever the backends refuse.  It is compiled by a connect that
finds no node compiled since the last disconnect or change of effects; such a connect does to the backend what
compiling the present pipeline does, and when it fails it leaves the brush as it was.  Every other step leaves the
backend alone, and every other connect answers the node that was compiled.  Each node that is answered was compiled
by exactly one step, with no change of effects since, and it is handed back at most once. -/
theorem history_answers (pipeline : Pipeline) (options : CompileOptions) (state : σ) (steps : List (Step σ ν)) :
    let history := history ({ pipeline, options }, state) steps
    (∀ (position : Nat) (entry : Entry σ ν), history[position]? = some entry →
      let present := (steps.take position).foldl Step.replace pipeline
      entry.before.1.pipeline = present ∧ entry.before.1.options = options ∧
      (∀ backend, entry.step = .connect backend →
        (∀ origin < position, ∀ node, ComesFrom history position origin node →
          entry.reply = .connected (.ok node) ∧ entry.after = entry.before) ∧
        ((¬∃ origin < position, ∃ node, ComesFrom history position origin node) →
          let outcome := (compile options backend present.effects).run.run entry.before.2
          entry.reply = .connected outcome.1 ∧ entry.after.2 = outcome.2 ∧
            ∀ error, outcome.1 = .error error →
              entry.after.1 = { pipeline := present, options := options, compiled := none })) ∧
      (entry.step.isConnect = false → entry.after.2 = entry.before.2) ∧
      (entry.step = .disconnect →
        ∃ handed, entry.reply = .handedBack handed ∧
          ∀ node, handed = some node ↔ ∃ origin < position, ComesFrom history position origin node)) ∧
    (∀ (position : Nat) (entry : Entry σ ν) (node : ν), history[position]? = some entry → entry.Gives node →
      ∃ origin, ComesFrom history position origin node ∧
        ∀ other otherNode, ComesFrom history position other otherNode → origin = other ∧ node = otherNode) ∧
    (∀ (first second origin : Nat) (entry other : Entry σ ν) (node otherNode : ν),
      history[first]? = some entry → history[second]? = some other →
      entry.step = .disconnect → other.step = .disconnect →
      ComesFrom history first origin node → ComesFrom history second origin otherNode → first = second) ∧
    ∀ (replaced position origin : Nat) (entry : Entry σ ν) (other : Pipeline) (node : ν),
      history[replaced]? = some entry → entry.step = .setEffects other → replaced < position →
      ComesFrom history position origin node → replaced < origin := by
  intro history
  refine ⟨?_, ?_, ?_, ?_⟩
  · intro position entry found present
    obtain ⟨same, entryOptions, entryPipeline⟩ := entry_history found
    refine ⟨entryPipeline, entryOptions, ?_, ?_, ?_⟩
    · intro backend connect
      exact ⟨fun _ before _ source => connect_of_comesFrom found connect before source, connect_afresh found connect⟩
    · intro other
      rw [same]
      cases done : entry.step with
      | connect backend => simp [done, Step.isConnect] at other
      | disconnect | setEffects => rfl
    · intro disconnect
      rw [disconnect] at same
      refine ⟨entry.before.1.compiled, ?_, fun node => compiled_fresh found⟩
      rw [same]
      rfl
  · intro position entry node found gives
    obtain ⟨origin, source⟩ := exists_comesFrom_of_gives found gives
    exact ⟨origin, source, fun _ _ again => source.unique again⟩
  · intro first second origin entry other node otherNode found otherFound disconnect otherDisconnect source again
    have ends : entry.step.isConnect = false := by rw [disconnect]; rfl
    have otherEnds : other.step.isConnect = false := by rw [otherDisconnect]; rfl
    -- What the later of two disconnects hands out was compiled after the earlier one.
    rcases Nat.lt_trichotomy first second with earlier | same | later
    · exact absurd (again.origin_after found ends earlier) (Nat.not_lt.mpr source.earlier)
    · exact same
    · exact absurd (source.origin_after otherFound otherEnds later) (Nat.not_lt.mpr again.earlier)
  · intro replaced position origin entry other node found setEffects earlier source
    have ends : entry.step.isConnect = false := by rw [setEffects]; rfl
    exact source.origin_after found ends earlier

end VisualEffects.Brush
