import VisualEffects.Json.Choice
import VisualEffects.Json.Record

namespace VisualEffects.Json

/-! Tagged values read straight from a text.

The tag is one member of an object, or the first item of a list.  It is read where it stands; everything else
is read whole, without regard to the tag, before the fields of the tagged kind are looked at.
-/

/-- The tag among the members of an object, and the other members. -/
def taggedMembers (key : String) (readTag : Node → Except Fault τ) (room : Nat) :
    List Member → Option τ → Except Fault (Option τ × List (String × Value))
  | [], found => .ok (found, [])
  | (name, node) :: rest, found => do
      let name ← name.value
      if name = key then
        if found.isSome then throw (.repeatedField key)
        let tag ← readTag node
        taggedMembers key readTag room rest (some tag)
      else
        let value ← node.value room
        let (found, others) ← taggedMembers key readTag room rest found
        return (found, (name, value) :: others)

/-- Splits a tagged value into its tag and an object or list of its fields.  `title` names what was
expected. -/
def readTagged (title key : String) (readTag : Node → Except Fault τ) (room : Nat) (node : Node) :
    Except Fault (τ × Value) :=
  match node, room with
  | .object _ _, 0 => .error .nestedTooDeep
  | .list _ _, 0 => .error .nestedTooDeep
  | .object members ending, room + 1 => do
      let (found, others) ← taggedMembers key readTag room members none
      Fault.check ending.fault?
      match found with
      | some tag => return (tag, .object others)
      | none => throw (.missingField key)
  | .list [] ending, _ + 1 => do
      Fault.check ending.fault?
      throw (.missingField key)
  | .list (first :: rest) ending, room + 1 => do
      let tag ← readTag first
      let others ← Node.valueItems room rest
      Fault.check ending.fault?
      return (tag, .list others)
  | other, _ => .error (other.mismatch title)

end VisualEffects.Json
