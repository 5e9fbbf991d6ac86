import VisualEffects.Json.Fault

namespace VisualEffects.Json

/-! JSON values, and the two ways of writing them: on one line, and indented by two spaces. -/

/-- A JSON value; the members of an object keep their order and may repeat a key. -/
inductive Value where
  | null
  | bool (value : Bool)
  | number (value : Number)
  | text (value : String)
  | list (items : List Value)
  | object (members : List (String × Value))
deriving Inhabited

namespace Value

def natural (n : Nat) : Value := .number (.integer n)

/-- A double as a value; what is not finite has no number and becomes null. -/
def real (x : Float) : Value := if x.isFinite then .number (.real x) else .null

/-- Null for what is absent. -/
def optional (write : α → Value) : Option α → Value
  | none => .null
  | some value => write value

/-- A member that is left out when its content is absent. -/
def optionalMember (name : String) (write : α → Value) : Option α → List (String × Value)
  | none => []
  | some value => [(name, write value)]

def found : Value → Found
  | null => .null
  | bool value => .bool value
  | number value => .number value
  | text value => .text value
  | list _ => .list
  | object _ => .object

def mismatch (value : Value) (expected : String) : Fault := .mismatch value.found expected

/-- One character inside a written text: quotes, backslashes and controls are escaped. -/
def textChar (c : Char) : List Char :=
  if c = '"' then ['\\', '"']
  else if c = '\\' then ['\\', '\\']
  else if c = '\x08' then ['\\', 'b']
  else if c = '\x0c' then ['\\', 'f']
  else if c = '\n' then ['\\', 'n']
  else if c = '\r' then ['\\', 'r']
  else if c = '\t' then ['\\', 't']
  else if c.toNat < 0x20 then '\\' :: 'u' :: Text.Hex.digits 4 c.toNat
  else [c]

def writtenText (text : String) : List Char :=
  '"' :: text.toList.flatMap textChar ++ ['"']

def word (value : Bool) : List Char := if value then ['t', 'r', 'u', 'e'] else ['f', 'a', 'l', 's', 'e']

mutual
/-- A value on one line, without blanks. -/
def compact : Value → List Char
  | .null => ['n', 'u', 'l', 'l']
  | .bool value => word value
  | .number value => value.render
  | .text value => writtenText value
  | .list [] => ['[', ']']
  | .list (first :: rest) => '[' :: first.compact ++ compactItems rest
  | .object [] => ['{', '}']
  | .object ((key, value) :: rest) => '{' :: writtenText key ++ ':' :: value.compact ++ compactMembers rest

/-- The items after the first one, and the closing bracket. -/
def compactItems : List Value → List Char
  | [] => [']']
  | item :: rest => ',' :: item.compact ++ compactItems rest

/-- The members after the first one, and the closing brace. -/
def compactMembers : List (String × Value) → List Char
  | [] => ['}']
  | (key, value) :: rest => ',' :: writtenText key ++ ':' :: value.compact ++ compactMembers rest
end

/-- A new line at a nesting level. -/
def newLine (level : Nat) : List Char := '\n' :: List.replicate (2 * level) ' '

mutual
/-- A value with every item and member on a line of its own; `level` is the nesting around it. -/
def indented (level : Nat) : Value → List Char
  | .null => ['n', 'u', 'l', 'l']
  | .bool value => word value
  | .number value => value.render
  | .text value => writtenText value
  | .list [] => ['[', ']']
  | .list (first :: rest) =>
      '[' :: newLine (level + 1) ++ first.indented (level + 1) ++ indentedItems level rest
  | .object [] => ['{', '}']
  | .object ((key, value) :: rest) =>
      '{' :: newLine (level + 1) ++ writtenText key ++ ':' :: ' ' :: value.indented (level + 1) ++
        indentedMembers level rest

def indentedItems (level : Nat) : List Value → List Char
  | [] => newLine level ++ [']']
  | item :: rest => ',' :: newLine (level + 1) ++ item.indented (level + 1) ++ indentedItems level rest

def indentedMembers (level : Nat) : List (String × Value) → List Char
  | [] => newLine level ++ ['}']
  | (key, value) :: rest =>
      ',' :: newLine (level + 1) ++ writtenText key ++ ':' :: ' ' :: value.indented (level + 1) ++
        indentedMembers level rest
end

def line (value : Value) : String := String.ofList value.compact

def page (value : Value) : String := String.ofList (value.indented 0)

end Value

end VisualEffects.Json
