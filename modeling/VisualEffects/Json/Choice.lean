import VisualEffects.Json.Node

namespace VisualEffects.Json

/-! Choices: types with finitely many values, each with a name in JSON.

A choice is written as its name.  Where one is expected, an object with the name as its only key and nothing
as its value is read as well.  Reading straight from a text and reading a value that was read whole before
word their faults differently.
-/

/-- A type whose values have names. -/
class Choice (α : Type) where
  all : List α
  label : α → String
  /-- Further names that are read but never written. -/
  aliases : List (String × α) := []
  /-- The names listed for a reader of an unknown one. -/
  known : List String := all.map label
  /-- What an unknown name is read as, if it is read at all. -/
  fallback? : Option α := none

namespace Choice

variable {α : Type} [Choice α]

def named? (name : String) : Option α :=
  match (all (α := α)).find? (label · == name) with
  | some value => some value
  | none =>
      match (aliases (α := α)).find? (·.1 == name) with
      | some entry => some entry.2
      | none => fallback?

def ofName (name : String) : Except Fault α :=
  match named? name with
  | some value => .ok value
  | none => .error (.unknownName name (known α))

/-- Words separated by underscores, each with a capital instead. -/
private def capitalWords (atStart : Bool) : List Char → List Char
  | [] => []
  | '_' :: rest => capitalWords true rest
  | c :: rest => (if atStart then c.toUpper else c) :: capitalWords false rest

/-- The name of a value in words that start with capitals and are not separated. -/
def title (value : α) : String := String.ofList (capitalWords true (label value).toList)

def toValue (value : α) : Value := .text (label value)

def readValue : Value → Except Fault α
  | .text name => ofName name
  | .object [(name, content)] => do
      let value ← ofName name
      match content with
      | .null => return value
      | .object [] => return value
      | other => throw (other.mismatch "unit")
  | .object _ => .error (.unacceptable .object "map with a single key")
  | other => .error (other.mismatch "string or map")

/-- The name that stands as a key or as a text; nothing else can name a value. -/
def readName : Node → Except Fault α
  | .text scanned => do ofName (← scanned.value)
  | other => .error (other.mismatch "variant identifier")

private def readNothing : Node → Except Fault Unit
  | .null => .ok ()
  | other => .error (other.mismatch "unit")

def readNode (room : Nat) : Node → Except Fault α
  | .text scanned => do ofName (← scanned.value)
  | .gap .endOfText => .error .endInValue
  | .object members ending =>
      match room, members, ending with
      | 0, _, _ => .error .nestedTooDeep
      | _, (key, node) :: others, ending => do
          let value ← ofName (← key.value)
          readNothing node
          match others, ending with
          | [], .closed => return value
          | [], .endOfText => throw .endInObject
          | _, _ => throw .noValue
      | _, [], ending => do
          Fault.check ending.fault?
          throw .noValue
  | _ => .error .noValue

end Choice

end VisualEffects.Json
