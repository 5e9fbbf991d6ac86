namespace VisualEffects

/-! Completions: waiting for begun operations to finish.

An operation is finished at once or when its gate is released.  A group is finished when all of its
operations are; who stops waiting changes nothing for the operations and for others who wait.
-/

inductive Completion where
  | atOnce
  | gate (number : Nat)
deriving DecidableEq, Repr, Inhabited

def Completion.isFinished (released : List Nat) : Completion → Bool
  | atOnce => true
  | gate number => released.contains number

/-- The completion of a group: the operations it still waits for, and how many there were. -/
structure GroupCompletion where
  waiting : List Completion
  length : Nat
deriving DecidableEq, Repr, Inhabited

namespace GroupCompletion

def join (members : List Completion) : GroupCompletion := ⟨members, members.length⟩

def isEmpty (completion : GroupCompletion) : Bool := completion.length == 0

/-- Looks which operations are finished by now and waits for the others only.  The answer is whether none is
left. -/
def poll (released : List Nat) (completion : GroupCompletion) : Bool × GroupCompletion :=
  let waiting := completion.waiting.filter fun member => !member.isFinished released
  (waiting.isEmpty, { completion with waiting })

def describe (completion : GroupCompletion) : String :=
  "GroupCompletion \x7b len: " ++ toString completion.length ++ " \x7d"

end GroupCompletion

/-- Completions that somebody holds, by the number they were given; those that were dropped are gone.  Beside
them the gates that were released so far. -/
structure Waits where
  held : Array (Option GroupCompletion) := #[]
  released : List Nat := []
deriving Inhabited

namespace Waits

inductive Answer where
  | pending
  | ready
  | gone
  | unknown
deriving DecidableEq, Repr

def hold (waits : Waits) (completion : GroupCompletion) : Nat × Waits :=
  (waits.held.size, { waits with held := waits.held.push (some completion) })

/-- Polls a completion; one that is ready is dropped. -/
def poll (waits : Waits) (number : Nat) : Answer × Waits :=
  match waits.held[number]? with
  | none => (.unknown, waits)
  | some none => (.gone, waits)
  | some (some completion) =>
      match completion.poll waits.released with
      | (true, _) => (.ready, { waits with held := waits.held.set! number none })
      | (false, left) => (.pending, { waits with held := waits.held.set! number (some left) })

def drop (waits : Waits) (number : Nat) : Bool × Waits :=
  if number < waits.held.size then (true, { waits with held := waits.held.set! number none })
  else (false, waits)

def isAwaited (waits : Waits) (gate : Nat) : Bool :=
  !waits.released.contains gate &&
    waits.held.any fun held => held.any fun completion => completion.waiting.contains (.gate gate)

/-- Releases a gate; the answer is whether somebody was waiting for it. -/
def release (waits : Waits) (gate : Nat) : Bool × Waits :=
  (waits.isAwaited gate, { waits with released := gate :: waits.released })

end Waits

end VisualEffects
