import VisualEffects.Json.Node

namespace VisualEffects

/-! Readers of numbers, texts and optional values, from a value and straight from a text.

First, when a reading that is made of others succeeds.
-/

section Outcomes

variable {ε α β : Type}

theorem bind_eq_ok {first : Except ε α} {next : α → Except ε β} {result : β} :
    (first >>= next) = .ok result ↔ ∃ value, first = .ok value ∧ next value = .ok result := by
  cases first <;> simp [bind, Except.bind]

theorem map_eq_ok {first : Except ε α} {f : α → β} {result : β} :
    first.map f = .ok result ↔ ∃ value, first = .ok value ∧ f value = result := by
  cases first <;> simp [Except.map]

theorem mapError_eq_ok {φ : Type} {first : Except ε α} {f : ε → φ} {result : α} :
    first.mapError f = .ok result ↔ first = .ok result := by
  cases first with
  | ok value =>
      constructor
      all_goals
        intro same
        cases same
        rfl
  | error fault => exact iff_of_false nofun nofun

theorem toOption_ok (value : α) : (Except.ok value : Except ε α).toOption = some value := rfl

theorem toOption_eq_some {result : Except ε α} {value : α} : result.toOption = some value ↔ result = .ok value := by
  cases result <;> simp [Except.toOption]

theorem toOption_bind (result : Except ε α) (next : α → Except ε β) :
    (result >>= next).toOption = result.toOption.bind fun value => (next value).toOption := by
  cases result <;> rfl

theorem toOption_map (result : Except ε α) (f : α → β) : (result.map f).toOption = result.toOption.map f := by
  cases result <;> rfl

end Outcomes

namespace Json

namespace Value

def readReal : Value → Except Fault Float
  | .number value => .ok value.toFloat
  | other => .error (other.mismatch "f64")

def readText : Value → Except Fault String
  | .text value => .ok value
  | other => .error (other.mismatch "a string")

def readOptional (read : Value → Except Fault α) : Value → Except Fault (Option α)
  | .null => .ok none
  | other => (read other).map some

end Value

namespace Node

def readReal : Node → Except Fault Float
  | .number scanned => scanned.value.map Number.toFloat
  | other => .error (other.mismatch "f64")

def readText : Node → Except Fault String
  | .text scanned => scanned.value
  | other => .error (other.mismatch "a string")

/-- A natural number; `expected` names the kind that the reader asks for. -/
def readNatural (expected : String) : Node → Except Fault Nat
  | .number scanned =>
      match scanned.value with
      | .error fault => .error fault
      | .ok (.integer value) =>
          if 0 ≤ value then .ok value.toNat
          else .error (.unacceptable (.number (.integer value)) expected)
      | .ok (.real value) => .error (.mismatch (.number (.real value)) expected)
  | other => .error (other.mismatch expected)

def readOptional (read : Node → Except Fault α) : Node → Except Fault (Option α)
  | .null => .ok none
  | other => (read other).map some

def readItems (read : Node → Except Fault α) : List Node → Except Fault (List α)
  | [] => .ok []
  | item :: rest => do
      let first ← read item
      let others ← readItems read rest
      return first :: others

def readList (read : Nat → Node → Except Fault α) (room : Nat) : Node → Except Fault (List α)
  | .list items ending =>
      match room with
      | 0 => .error .nestedTooDeep
      | room + 1 => do
          let found ← readItems (read room) items
          Fault.check ending.fault?
          return found
  | other => .error (other.mismatch "a sequence")

end Node

end Json

end VisualEffects
