import VisualEffects.Json.Read

namespace VisualEffects.Json

/-! Records: values with named fields.

A record is read from an object, whose members may come in any order, or from a list of its fields in the
order of their declaration.  Unknown members are ignored, a known one may occur once.  What has been read so
far is kept in a draft, one place per field; only when the object or list is finished does a missing field
show.
-/

class Fields (φ : Type) where
  Content : φ → Type
  name : φ → String

/-- What has been read of a record. -/
def Draft (φ : Type) [Fields φ] : Type := (field : φ) → Option (Fields.Content field)

/-- Which fields a record has, in the order of their declaration, and how faults name it. -/
structure Layout (φ : Type) where
  title : String
  fields : List φ
  required : φ → Bool

def elements (count : Nat) : String :=
  if count = 1 then "1 element" else toString count ++ " elements"

namespace Layout

variable {φ : Type} [Fields φ] (layout : Layout φ)

def field? (name : String) : Option φ := layout.fields.find? (Fields.name · == name)

def whole : String := layout.title ++ " with " ++ elements layout.fields.length

end Layout

namespace Draft

variable {φ : Type} [Fields φ] [DecidableEq φ]

def empty : Draft φ := fun _ => none

def put (draft : Draft φ) (field : φ) (content : Fields.Content field) : Draft φ :=
  fun other => if same : field = other then some (same ▸ content) else draft other

/-- The content of a field that must be there. -/
def need (draft : Draft φ) (field : φ) : Except Fault (Fields.Content field) :=
  match draft field with
  | some content => .ok content
  | none => .error (.missingField (Fields.name field))

/-- Puts the content of a field that has not been read before. -/
def putOnce (draft : Draft φ) (field : φ) (content : Except Fault (Fields.Content field)) :
    Except Fault (Draft φ) :=
  if (draft field).isSome then .error (.repeatedField (Fields.name field))
  else content.map (draft.put field)

@[simp] theorem put_self (draft : Draft φ) (field : φ) (content : Fields.Content field) :
    draft.put field content field = some content := by
  simp [put]

theorem put_other (draft : Draft φ) {field other : φ} (content : Fields.Content field)
    (different : field ≠ other) : draft.put field content other = draft other := by
  simp [put, different]

end Draft

namespace Layout

variable {φ : Type} [Fields φ] [DecidableEq φ] (layout : Layout φ)

def readMembers (read : (field : φ) → Value → Except Fault (Fields.Content field)) :
    List (String × Value) → Draft φ → Except Fault (Draft φ)
  | [], draft => .ok draft
  | (name, value) :: rest, draft =>
      match layout.field? name with
      | none => readMembers read rest draft
      | some field => do
          let draft ← draft.putOnce field (read field value)
          readMembers read rest draft

/-- Fields after the end of a list must have defaults; `index` counts the fields before them. -/
def checkAbsent (index : Nat) : List φ → Except Fault Unit
  | [] => .ok ()
  | field :: fields =>
      if layout.required field then .error (.wrongLength index layout.whole)
      else checkAbsent (index + 1) fields

/-- The fault of a list that goes on after the last of `count` fields. -/
def overlong (count : Nat) (rest : List Value) : Fault :=
  .wrongLength (count + rest.length) (elements count ++ " in sequence")

/-- Reads the items of a list that has been read whole; `index` counts the fields before. -/
def readItems (read : (field : φ) → Value → Except Fault (Fields.Content field)) (index : Nat) :
    List Value → List φ → Draft φ → Except Fault (Draft φ)
  | [], fields, draft => do
      layout.checkAbsent index fields
      return draft
  | value :: rest, [], _ => .error (overlong index (value :: rest))
  | value :: rest, field :: fields, draft => do
      let content ← read field value
      readItems read (index + 1) rest fields (draft.put field content)

def readValue (read : (field : φ) → Value → Except Fault (Fields.Content field))
    (finish : Draft φ → Except Fault α) : Value → Except Fault α
  | .object members => do finish (← layout.readMembers read members Draft.empty)
  | .list items => do finish (← layout.readItems read 0 items layout.fields Draft.empty)
  | other => .error (other.mismatch layout.title)

/-- Reads the members of an object straight from a text; unknown ones are passed over. -/
def readNodeMembers (read : (field : φ) → Node → Except Fault (Fields.Content field)) :
    List Member → Draft φ → Except Fault (Draft φ)
  | [], draft => .ok draft
  | (key, node) :: rest, draft => do
      match layout.field? (← key.value) with
      | none =>
          node.pass
          readNodeMembers read rest draft
      | some field =>
          let draft ← draft.putOnce field (read field node)
          readNodeMembers read rest draft

/-- What follows the last field in a list that is read straight from a text. -/
def checkEnd : List Node → ListEnd → Except Fault Unit
  | [], .closed => .ok ()
  | [], .endOfText => .error .endInList
  | [.gap .closedList], _ => .error .trailingComma
  | _, _ => .error .trailingCharacters

/-- Reads the items of a list straight from a text; `index` counts the fields before. -/
def readNodeItems (read : (field : φ) → Node → Except Fault (Fields.Content field)) (ending : ListEnd)
    (index : Nat) : List Node → List φ → Draft φ → Except Fault (Draft φ)
  | items, [], draft => do
      checkEnd items ending
      return draft
  | [], fields, draft => do
      Fault.check ending.fault?
      layout.checkAbsent index fields
      return draft
  | item :: rest, field :: fields, draft => do
      let content ← read field item
      readNodeItems read ending (index + 1) rest fields (draft.put field content)

def readNode (read : Nat → (field : φ) → Node → Except Fault (Fields.Content field))
    (finish : Draft φ → Except Fault α) (room : Nat) (node : Node) : Except Fault α :=
  match node, room with
  | .object _ _, 0 => .error .nestedTooDeep
  | .list _ _, 0 => .error .nestedTooDeep
  | .object members ending, room + 1 => do
      let draft ← layout.readNodeMembers (read room) members Draft.empty
      Fault.check ending.fault?
      finish draft
  | .list items ending, room + 1 => do
      finish (← layout.readNodeItems (read room) ending 0 items layout.fields Draft.empty)
  | other, _ => .error (other.mismatch layout.title)

end Layout

end VisualEffects.Json
