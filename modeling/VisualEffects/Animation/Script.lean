import VisualEffects.Animation.Builder

namespace VisualEffects

/-! Scripts: requests for one target with their timing, as they are kept in JSON. -/

structure AnimationScript where
  target : StaticTarget := {}
  /-- Nothing for the duration of the builder. -/
  durationMs : Option UInt64 := none
  /-- Nothing for the delay of the builder. -/
  delayMs : Option UInt64 := none
  steps : List Request
deriving DecidableEq, Inhabited

namespace AnimationScript

open Json (Value Fault Layout Draft Node)

inductive Field where
  | target
  | durationMs
  | delayMs
  | steps
deriving DecidableEq

instance : Json.Fields Field where
  Content
    | .target => StaticTarget
    | .durationMs => Option UInt64
    | .delayMs => Option UInt64
    | .steps => List Request
  name
    | .target => "target"
    | .durationMs => "duration_ms"
    | .delayMs => "delay_ms"
    | .steps => "steps"

def layout : Layout Field where
  title := "struct AnimationScript"
  fields := [.target, .durationMs, .delayMs, .steps]
  required
    | .steps => true
    | _ => false

def readField (room : Nat) : (field : Field) → Node → Except Fault (Json.Fields.Content field)
  | .target => StaticTarget.readNode room
  | .durationMs => Node.readOptional AnimationOptions.readMilliseconds
  | .delayMs => Node.readOptional AnimationOptions.readMilliseconds
  | .steps => Node.readList Request.readNode room

def ofDraft (draft : Draft Field) : Except Fault AnimationScript := do
  return ⟨(draft .target).getD {}, (draft .durationMs).getD none, (draft .delayMs).getD none,
    ← draft.need .steps⟩

def readNode : Nat → Node → Except Fault AnimationScript := layout.readNode readField ofDraft

def ofText (text : String) : Except Error AnimationScript :=
  ((Json.Document.ofText text).read readNode).mapError fun fault =>
    .serialization ("animation script: " ++ fault.message)

private def milliseconds (count : UInt64) : Value := .natural count.toNat

def toValue (script : AnimationScript) : Value :=
  .object (("target", script.target.toValue) ::
    Value.optionalMember "duration_ms" milliseconds script.durationMs ++
    Value.optionalMember "delay_ms" milliseconds script.delayMs ++
    [("steps", .list (script.steps.map Request.toValue))])

variable {τ : Type}

def setTiming (script : AnimationScript) (builder : AnimationBuilder τ) : AnimationBuilder τ :=
  let builder := match script.durationMs with
    | some count => builder.withDuration (.ofMilliseconds count)
    | none => builder
  match script.delayMs with
  | some count => builder.withDelay (.ofMilliseconds count)
  | none => builder

/-- Makes requests up to the first that is rejected; the answer is the builder as it is then, and the rejection. -/
def recordAll [AnimationTarget τ] : List Request → AnimationBuilder τ → AnimationBuilder τ × Except Error Unit
  | [], builder => (builder, .ok ())
  | step :: rest, builder =>
      match step.apply.run.run builder with
      | (.ok _, next) => recordAll rest next
      | (.error error, next) => (next, .error error)

/-- Sets the timing and records the steps up to the first that is rejected.  What was recorded before a
rejection stays. -/
def configure [AnimationTarget τ] (script : AnimationScript) (builder : AnimationBuilder τ) :
    AnimationBuilder τ × Except Error Unit :=
  recordAll script.steps (script.setTiming builder)

end AnimationScript

end VisualEffects
