import VisualEffects.Animation.Group

namespace VisualEffects

/-! Waiting for groups whose operations are finished when their gates are released.

Groups are begun, gates are released, and completions are polled and dropped in any order.  The completion of a group
waits for the gates of its own begins and for no others, so it is ready from the release of the last of them on, and it
makes no difference to it who else stops waiting.
-/

namespace AnimationBackend

/-- A backend that numbers its begins; what was begun is finished when the gate of that number is released. -/
structure Gated (backend : AnimationBackend σ τ ω) (begun : σ → Nat) : Prop where
  completion : ∀ operation state, ((backend.begin operation).run state).1 = .gate (begun state)
  counts : ∀ operation state, begun ((backend.begin operation).run state).2 = begun state + 1

theorem recordGated_gated : (Timeline.recordGated : AnimationBackend Timeline τ _).Gated Timeline.begun where
  completion _ _ := rfl
  counts _ _ := rfl

theorem Gated.run_beginAll {backend : AnimationBackend σ τ ω} {begun : σ → Nat} (gated : backend.Gated begun)
    (operations : List ω) (state : σ) :
    let outcome := (AnimationGroup.beginAll backend operations).run state
    outcome.1 = (List.range' (begun state) operations.length).map .gate ∧
      begun outcome.2 = begun state + operations.length := by
  induction operations generalizing state with
  | nil => exact ⟨rfl, rfl⟩
  | cons operation rest ih =>
      obtain ⟨completions, count⟩ := ih ((backend.begin operation).run state).2
      rw [gated.counts] at completions count
      refine ⟨?_, ?_⟩
      · rw [List.length_cons, List.range'_succ, List.map_cons, ← completions, ← gated.completion operation state]
        rfl
      · rw [List.length_cons, Nat.add_comm rest.length, ← Nat.add_assoc, ← count]
        rfl

end AnimationBackend

theorem GroupCompletion.poll_eq_true {released : List Nat} {completion : GroupCompletion} :
    (completion.poll released).1 = true ↔ ∀ member ∈ completion.waiting, member.isFinished released = true := by
  simp [GroupCompletion.poll]

namespace Waits

/-- Waits that agree on everything but what is held under one number. -/
structure AgreeBut (number : Nat) (left right : Waits) : Prop where
  released : left.released = right.released
  size : left.held.size = right.held.size
  held : ∀ other, other ≠ number → left.held[other]? = right.held[other]?

theorem AgreeBut.symm {number : Nat} {left right : Waits} (agree : AgreeBut number left right) :
    AgreeBut number right left :=
  ⟨agree.released.symm, agree.size.symm, fun other apart => (agree.held other apart).symm⟩

theorem AgreeBut.trans {number : Nat} {first second third : Waits} (left : AgreeBut number first second)
    (right : AgreeBut number second third) : AgreeBut number first third :=
  ⟨left.released.trans right.released, left.size.trans right.size,
    fun other apart => (left.held other apart).trans (right.held other apart)⟩

theorem AgreeBut.refl (number : Nat) (waits : Waits) : AgreeBut number waits waits := ⟨rfl, rfl, fun _ _ => rfl⟩

theorem agreeBut_set (waits : Waits) (number : Nat) (held : Option GroupCompletion) :
    AgreeBut number waits { waits with held := waits.held.set! number held } where
  released := rfl
  size := by simp
  held := by
    intro other apart
    simp [apart.symm]

theorem agreeBut_poll (waits : Waits) (number : Nat) : AgreeBut number waits (waits.poll number).2 := by
  unfold poll
  split
  · exact AgreeBut.refl number waits
  · exact AgreeBut.refl number waits
  · split <;> exact agreeBut_set waits number _

theorem agreeBut_drop (waits : Waits) (number : Nat) : AgreeBut number waits (waits.drop number).2 := by
  unfold drop
  split
  · exact agreeBut_set waits number none
  · exact AgreeBut.refl number waits

theorem AgreeBut.set {dropped : Nat} {left right : Waits} (agree : AgreeBut dropped left right) (number : Nat)
    (held : Option GroupCompletion) :
    AgreeBut dropped { left with held := left.held.set! number held }
      { right with held := right.held.set! number held } where
  released := agree.released
  size := by simp [agree.size]
  held := by
    intro other apart
    simp [Array.getElem?_setIfInBounds, agree.size, agree.held other apart]

theorem AgreeBut.poll {dropped : Nat} {left right : Waits} (agree : AgreeBut dropped left right) (number : Nat) :
    AgreeBut dropped (left.poll number).2 (right.poll number).2 ∧
      (number ≠ dropped → (left.poll number).1 = (right.poll number).1) := by
  by_cases same : number = dropped
  · subst same
    refine ⟨?_, fun apart => absurd rfl apart⟩
    exact (agreeBut_poll left number).symm.trans (agree.trans (agreeBut_poll right number))
  · unfold Waits.poll
    rw [agree.held number same]
    split
    · exact ⟨agree, fun _ => rfl⟩
    · exact ⟨agree, fun _ => rfl⟩
    · rename_i completion _
      have looked : completion.poll left.released = completion.poll right.released := by rw [agree.released]
      rw [looked]
      split
      · exact ⟨agree.set number none, fun _ => rfl⟩
      · rename_i left _
        exact ⟨agree.set number (some left), fun _ => rfl⟩

theorem AgreeBut.drop {dropped : Nat} {left right : Waits} (agree : AgreeBut dropped left right) (number : Nat) :
    AgreeBut dropped (left.drop number).2 (right.drop number).2 := by
  unfold Waits.drop
  rw [agree.size]
  split
  · exact agree.set number none
  · exact agree

theorem AgreeBut.hold {dropped : Nat} {left right : Waits} (agree : AgreeBut dropped left right)
    (completion : GroupCompletion) : AgreeBut dropped (left.hold completion).2 (right.hold completion).2 where
  released := agree.released
  size := by simp [Waits.hold, agree.size]
  held := by
    intro other apart
    simp [Waits.hold, Array.getElem?_push, agree.size, agree.held other apart]

theorem AgreeBut.release {dropped : Nat} {left right : Waits} (agree : AgreeBut dropped left right) (gate : Nat) :
    AgreeBut dropped (left.release gate).2 (right.release gate).2 :=
  ⟨congrArg (gate :: ·) agree.released, agree.size, agree.held⟩

/-- Under a number the completion of a group is held that waits for the gates that were not released when it was
polled last. -/
def Awaits (waits : Waits) (number : Nat) (gates : List Nat) : Prop :=
  ∃ completion, waits.held[number]? = some (some completion) ∧ completion.length = gates.length ∧
    (∀ gate ∈ gates, .gate gate ∈ completion.waiting ∨ gate ∈ waits.released) ∧
    ∀ member ∈ completion.waiting, ∃ gate ∈ gates, member = .gate gate

variable {waits other : Waits} {number : Nat} {gates : List Nat}

theorem awaits_hold (waits : Waits) (gates : List Nat) :
    Awaits (waits.hold (.join (gates.map .gate))).2 waits.held.size gates := by
  refine ⟨.join (gates.map .gate), by simp [hold], List.length_map _, ?_, ?_⟩
  · intro gate member
    exact .inl (List.mem_map_of_mem member)
  · intro member waiting
    obtain ⟨gate, inGates, same⟩ := List.mem_map.mp waiting
    exact ⟨gate, inGates, same.symm⟩

theorem Awaits.of_agreeBut {apart : Nat} (awaits : Awaits waits number gates) (agree : AgreeBut apart waits other)
    (different : number ≠ apart) : Awaits other number gates := by
  obtain ⟨completion, held, length, waiting, own⟩ := awaits
  exact ⟨completion, (agree.held number different).symm.trans held, length, agree.released ▸ waiting, own⟩

theorem Awaits.hold (awaits : Awaits waits number gates) (completion : GroupCompletion) :
    Awaits (waits.hold completion).2 number gates := by
  obtain ⟨own, held, rest⟩ := awaits
  have inside := (Array.getElem?_eq_some_iff.mp held).1
  refine ⟨own, ?_, rest⟩
  rw [← held]
  simp [Waits.hold, Array.getElem?_push, Nat.ne_of_lt inside]

theorem Awaits.release (awaits : Awaits waits number gates) (gate : Nat) :
    Awaits (waits.release gate).2 number gates := by
  obtain ⟨completion, held, length, waiting, own⟩ := awaits
  refine ⟨completion, held, length, ?_, own⟩
  intro other member
  exact (waiting other member).imp_right (List.mem_cons_of_mem gate)

/-- A poll answers whether all gates are released. -/
theorem Awaits.poll (awaits : Awaits waits number gates) :
    ((waits.poll number).1 = .ready ↔ ∀ gate ∈ gates, gate ∈ waits.released) ∧
      ((waits.poll number).1 = .pending ↔ ¬∀ gate ∈ gates, gate ∈ waits.released) := by
  obtain ⟨completion, held, _, waiting, own⟩ := awaits
  have finished : (completion.poll waits.released).1 = true ↔ ∀ gate ∈ gates, gate ∈ waits.released := by
    rw [GroupCompletion.poll_eq_true]
    constructor
    · intro all gate member
      rcases waiting gate member with stillWaiting | released
      · exact List.contains_iff_mem.mp (all _ stillWaiting)
      · exact released
    · intro all member stillWaiting
      obtain ⟨gate, inGates, same⟩ := own member stillWaiting
      rw [same]
      exact List.contains_iff_mem.mpr (all gate inGates)
  rw [← finished]
  simp only [Waits.poll, held]
  rcases completion.poll waits.released with ⟨_ | _, left⟩ <;> simp

/-- Only the gates of a completion count for it. -/
theorem Awaits.release_foreign (awaits : Awaits waits number gates) {gate : Nat} (foreign : gate ∉ gates) :
    ((waits.release gate).2.poll number).1 = (waits.poll number).1 := by
  obtain ⟨ready, pending⟩ := awaits.poll
  obtain ⟨readyAfter, pendingAfter⟩ := (awaits.release gate).poll
  have same : (∀ own ∈ gates, own ∈ (waits.release gate).2.released) ↔ ∀ own ∈ gates, own ∈ waits.released := by
    constructor
    · intro all own member
      rcases List.mem_cons.mp (all own member) with equal | before
      · exact absurd (equal ▸ member) foreign
      · exact before
    · intro all own member
      exact List.mem_cons_of_mem gate (all own member)
  by_cases all : ∀ own ∈ gates, own ∈ waits.released
  · rw [ready.mpr all, readyAfter.mpr (same.mpr all)]
  · rw [pending.mpr all, pendingAfter.mpr (mt same.mp all)]

/-- A completion that is not ready goes on waiting. -/
theorem Awaits.poll_again (awaits : Awaits waits number gates) (unready : (waits.poll number).1 ≠ .ready) :
    Awaits (waits.poll number).2 number gates := by
  obtain ⟨completion, held, length, waiting, own⟩ := awaits
  have inside := (Array.getElem?_eq_some_iff.mp held).1
  simp only [Waits.poll, held] at unready ⊢
  cases answered : completion.poll waits.released with
  | mk ready left =>
      rw [answered] at unready
      cases ready with
      | true => exact absurd rfl unready
      | false =>
          have same : left = (completion.poll waits.released).2 := by rw [answered]
          subst same
          refine ⟨(completion.poll waits.released).2, by simp [inside], length, ?_, ?_⟩
          · intro gate member
            by_cases released : gate ∈ waits.released
            · exact .inr released
            · refine .inl ?_
              have stillWaiting := (waiting gate member).resolve_right released
              simp [GroupCompletion.poll, stillWaiting, Completion.isFinished, released]
          · intro member stillWaiting
            exact own member (List.mem_filter.mp stillWaiting).1

/-- What happens to groups and to their completions, in any order. -/
inductive Act (ω : Type) where
  | run (group : AnimationGroup ω)
  | runAwaited (group : AnimationGroup ω)
  | release (gate : Nat)
  | poll (number : Nat)
  | drop (number : Nat)

variable {σ τ ω : Type} {backend : AnimationBackend σ τ ω} {begun : σ → Nat}

/-- Does one act on a backend and on the completions that are held.  A group that is begun to be awaited gets the
next number. -/
def perform (backend : AnimationBackend σ τ ω) : σ × Waits → Act ω → σ × Waits
  | (state, waits), .run group => (((group.run backend).run state).2, waits)
  | (state, waits), .runAwaited group =>
      let outcome := (group.runAwaited backend).run state
      (outcome.2, (waits.hold outcome.1).2)
  | (state, waits), .release gate => (state, (waits.release gate).2)
  | (state, waits), .poll number => (state, (waits.poll number).2)
  | (state, waits), .drop number => (state, (waits.drop number).2)

def answer? (waits : Waits) : Act ω → Option (Nat × Answer)
  | .poll number => some (number, (waits.poll number).1)
  | _ => none

/-- Does acts one after the other, and lists what polls were answered on the way. -/
def schedule (backend : AnimationBackend σ τ ω) : σ × Waits → List (Act ω) → List (Nat × Answer) × σ × Waits
  | scene, [] => ([], scene)
  | scene, act :: rest =>
      let (answers, last) := schedule backend (perform backend scene act) rest
      ((answer? scene.2 act).toList ++ answers, last)

theorem perform_runAwaited (gated : backend.Gated begun) (group : AnimationGroup ω) (state : σ) (waits : Waits) :
    let after := perform backend (state, waits) (.runAwaited group)
    begun after.1 = begun state + group.length ∧
      after.2 = (waits.hold (.join ((List.range' (begun state) group.length).map .gate))).2 := by
  obtain ⟨completions, count⟩ := gated.run_beginAll group.operations state
  exact ⟨count, congrArg (fun members => (waits.hold (.join members)).2) completions⟩

theorem released_perform (scene : σ × Waits) (act : Act ω) (gate : Nat) :
    gate ∈ (perform backend scene act).2.released ↔ gate ∈ scene.2.released ∨ act = .release gate := by
  obtain ⟨state, waits⟩ := scene
  cases act with
  | run | runAwaited => simp [perform, hold]
  | release other => simp [perform, release, or_comm, eq_comm]
  | poll number => simp [perform, (agreeBut_poll waits number).released]
  | drop number => simp [perform, (agreeBut_drop waits number).released]

theorem released_schedule (scene : σ × Waits) (acts : List (Act ω)) (gate : Nat) :
    gate ∈ (schedule backend scene acts).2.2.released ↔ gate ∈ scene.2.released ∨ .release gate ∈ acts := by
  induction acts generalizing scene with
  | nil => simp [schedule]
  | cons act rest ih =>
      rw [schedule, ih, released_perform, List.mem_cons, or_assoc, eq_comm]

/-- A completion waits on through every act but its own drop and a poll that finds it ready. -/
theorem Awaits.perform {scene : σ × Waits} (awaits : Awaits scene.2 number gates) {act : Act ω}
    (kept : act ≠ .drop number) (unready : answer? scene.2 act ≠ some (number, .ready)) :
    Awaits (Waits.perform backend scene act).2 number gates := by
  obtain ⟨state, waits⟩ := scene
  cases act with
  | run group => exact awaits
  | runAwaited group => exact awaits.hold _
  | release gate => exact awaits.release gate
  | drop other =>
      have different : number ≠ other := fun same => kept (by rw [same])
      exact awaits.of_agreeBut (agreeBut_drop waits other) different
  | poll other =>
      by_cases same : number = other
      · subst same
        apply awaits.poll_again
        intro ready
        exact unready (by rw [answer?, ready])
      · exact awaits.of_agreeBut (agreeBut_poll waits other) same

theorem Awaits.schedule {scene : σ × Waits} (awaits : Awaits scene.2 number gates) {acts : List (Act ω)}
    (kept : .drop number ∉ acts) (unready : (number, .ready) ∉ (Waits.schedule backend scene acts).1) :
    Awaits (Waits.schedule backend scene acts).2.2 number gates := by
  induction acts generalizing scene with
  | nil => exact awaits
  | cons act rest ih =>
      have apart := not_or.mp (mt List.mem_append.mpr unready)
      refine ih (awaits.perform ?_ ?_) ?_ apart.2
      · intro same
        exact kept (same ▸ List.mem_cons_self)
      · intro ready
        exact apart.1 (by rw [ready]; exact List.mem_singleton_self _)
      · intro later
        exact kept (List.mem_cons_of_mem _ later)

/-- Two runs that differ only in a completion that one of them dropped go on to differ only in that. -/
theorem AgreeBut.perform {dropped : Nat} {left right : σ × Waits} (agree : AgreeBut dropped left.2 right.2)
    (states : left.1 = right.1) (backend : AnimationBackend σ τ ω) (act : Act ω) :
    (Waits.perform backend left act).1 = (Waits.perform backend right act).1 ∧
      AgreeBut dropped (Waits.perform backend left act).2 (Waits.perform backend right act).2 ∧
      (answer? left.2 act).toList.filter (·.1 ≠ dropped) = (answer? right.2 act).toList.filter (·.1 ≠ dropped) := by
  obtain ⟨state, left⟩ := left
  obtain ⟨_, right⟩ := right
  subst states
  cases act with
  | run group => exact ⟨rfl, agree, rfl⟩
  | runAwaited group => exact ⟨rfl, agree.hold _, rfl⟩
  | release gate => exact ⟨rfl, agree.release gate, rfl⟩
  | drop number => exact ⟨rfl, agree.drop number, rfl⟩
  | poll number =>
      obtain ⟨after, answers⟩ := agree.poll number
      refine ⟨rfl, after, ?_⟩
      by_cases same : number = dropped
      · simp [answer?, same]
      · simp [answer?, answers same]

theorem AgreeBut.schedule {dropped : Nat} {left right : σ × Waits} (agree : AgreeBut dropped left.2 right.2)
    (states : left.1 = right.1) (backend : AnimationBackend σ τ ω) (acts : List (Act ω)) :
    (Waits.schedule backend left acts).2.1 = (Waits.schedule backend right acts).2.1 ∧
      (Waits.schedule backend left acts).1.filter (·.1 ≠ dropped) =
        (Waits.schedule backend right acts).1.filter (·.1 ≠ dropped) := by
  induction acts generalizing left right with
  | nil => exact ⟨states, rfl⟩
  | cons act rest ih =>
      obtain ⟨nextStates, nextAgree, answers⟩ := agree.perform states backend act
      obtain ⟨lastStates, laterAnswers⟩ := ih nextAgree nextStates
      refine ⟨lastStates, ?_⟩
      rw [Waits.schedule, Waits.schedule, List.filter_append, List.filter_append, answers, laterAnswers]

/-- However gates are released and completions are polled and dropped after a group was begun, a poll of its completion
answers ready for the first time when the gates of all its begins are released, and pending before.  The release of
another gate changes no answer.  A completion knows the number of its operations; dropping one leaves the backend as it
is, and every poll of another one answers what it would have answered without the drop. -/
theorem runAwaited_ready_iff_released (gated : backend.Gated begun) (group : AnimationGroup ω) (state : σ)
    (waits : Waits) (acts : List (Act ω)) :
    let number := waits.held.size
    let gates := List.range' (begun state) group.length
    let started := perform backend (state, waits) (.runAwaited group)
    let later := (schedule backend started acts).2
    begun started.1 = begun state + group.length ∧
    (.drop number ∉ acts → (number, .ready) ∉ (schedule backend started acts).1 →
      (∃ completion, later.2.held[number]? = some (some completion) ∧ completion.length = group.length) ∧
      ((later.2.poll number).1 = .ready ↔ ∀ gate ∈ gates, gate ∈ waits.released ∨ .release gate ∈ acts) ∧
      ((later.2.poll number).1 = .pending ↔ ¬∀ gate ∈ gates, gate ∈ waits.released ∨ .release gate ∈ acts) ∧
      ∀ gate ∉ gates, ((later.2.release gate).2.poll number).1 = (later.2.poll number).1) ∧
    ∀ dropped more, let without := schedule backend (perform backend later (.drop dropped)) more
      (perform backend later (.drop dropped)).1 = later.1 ∧
      without.2.1 = (schedule backend later more).2.1 ∧
      without.1.filter (·.1 ≠ dropped) = (schedule backend later more).1.filter (·.1 ≠ dropped) := by
  intro number gates started later
  obtain ⟨count, held⟩ := perform_runAwaited gated group state waits
  have begins : Awaits started.2 number gates := held ▸ awaits_hold waits gates
  have released : started.2.released = waits.released := congrArg (·.released) held
  refine ⟨count, ?_, ?_⟩
  · intro kept unready
    have awaits : Awaits later.2 number gates := begins.schedule kept unready
    have soFar (gate : Nat) : gate ∈ later.2.released ↔ gate ∈ waits.released ∨ .release gate ∈ acts := by
      rw [← released]
      exact released_schedule started acts gate
    obtain ⟨ready, pending⟩ := awaits.poll
    refine ⟨?_, ?_, ?_, ?_⟩
    · obtain ⟨completion, there, length, _⟩ := awaits
      exact ⟨completion, there, by rw [length, List.length_range']⟩
    · rw [ready]
      simp only [soFar]
    · rw [pending]
      simp only [soFar]
    · intro gate foreign
      exact awaits.release_foreign foreign
  · intro dropped more
    have agree : AgreeBut dropped (perform backend later (.drop dropped)).2 later.2 :=
      (agreeBut_drop later.2 dropped).symm
    obtain ⟨states, answers⟩ := agree.schedule rfl backend more
    exact ⟨rfl, states, answers⟩

theorem runAwaited_ready_of_last_release :
    let group : AnimationGroup (TimedTrack Float) := ⟨[default, default], [default, default], ⟨0⟩⟩
    let backend : AnimationBackend Timeline StaticTarget (TimedTrack Float) := Timeline.recordGated
    let earlier := perform backend ({}, {}) (.run group)
    let started := perform backend earlier (.runAwaited group)
    let acts : List (Act (TimedTrack Float)) :=
      [.poll 0, .release 3, .release 0, .runAwaited group, .poll 0, .drop 1, .release 2]
    let later := (schedule backend started acts).2
    .drop 0 ∉ acts ∧ (0, .ready) ∉ (schedule backend started acts).1 ∧
      ((later.2.poll 0).1 = .ready ↔ ∀ gate ∈ [2, 3], gate ∈ [] ∨ .release gate ∈ acts) ∧
      (later.2.poll 0).1 = .ready := by
  intro group backend earlier started acts later
  have kept : .drop 0 ∉ acts := by simp [acts]
  have unready : (0, .ready) ∉ (schedule backend started acts).1 := by decide
  have ready := (runAwaited_ready_iff_released AnimationBackend.recordGated_gated group earlier.1 earlier.2 acts).2.1
    kept unready
  exact ⟨kept, unready, ready.2.1, rfl⟩

end Waits

end VisualEffects
