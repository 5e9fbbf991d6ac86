import VisualEffects.Json.Token
import VisualEffects.Json.Value

namespace VisualEffects.Json

/-! A JSON text as a tree that remembers where its syntax breaks off.

Whether a broken text is noticed, and as what, depends on how it is read: a reader may fail at a value of the
wrong kind before it reaches the broken place, and passing over a value asks for less than reading it.  So the
text becomes a tree of everything up to the first place that nobody gets past, and the readers walk that tree
in text order.

`Node.pass` and `Node.value` are the two readers that need no expectation: one passes over a value, the other
reads all of it.
-/

/-- Why no value stands where one should start. -/
inductive Gap where
  | endOfText
  /-- No value starts with what stands here. -/
  | stray
  /-- A list is closed right after a comma. -/
  | closedList
  /-- A key is not followed by a colon. -/
  | noColon
  | endAfterKey
  | word (fault : Fault)
deriving Inhabited

def Gap.read : Gap → Fault
  | endOfText => .endInValue
  | stray => .noValue
  | closedList => .trailingComma
  | noColon => .noColon
  | endAfterKey => .endInObject
  | word fault => fault

def Gap.passed : Gap → Fault
  | closedList => .noValue
  | gap => gap.read

inductive ListEnd where
  | closed
  | endOfText
  | noSeparator
deriving DecidableEq, Inhabited

inductive ObjectEnd where
  | closed
  | endOfText
  | noSeparator
  | closedAfterComma
  | endAfterComma
  /-- Another token stands where a key should. -/
  | noKey (token : Token)
deriving Inhabited

def ListEnd.fault? : ListEnd → Option Fault
  | closed => none
  | endOfText => some .endInList
  | noSeparator => some .noListSeparator

def ObjectEnd.fault? : ObjectEnd → Option Fault
  | closed => none
  | endOfText => some .endInObject
  | noSeparator => some .noObjectSeparator
  | closedAfterComma => some .trailingComma
  | endAfterComma => some .endInValue
  | noKey _ => some .keyNotText

def ObjectEnd.passedFault? : ObjectEnd → Option Fault
  | closedAfterComma => some .keyNotText
  | endAfterComma => some .endInObject
  | ending => ending.fault?

def Fault.check : Option Fault → Except Fault Unit
  | none => .ok ()
  | some fault => .error fault

inductive Node where
  | gap (cause : Gap)
  | null
  | bool (value : Bool)
  | number (scanned : Scanned Number)
  | text (scanned : Scanned String)
  | list (items : List Node) (ending : ListEnd)
  | object (members : List (Scanned String × Node)) (ending : ObjectEnd)
deriving Inhabited

abbrev Member := Scanned String × Node

namespace Node

mutual
/-- Passes over a value.  Nesting is not limited, numbers may be of any size and surrogates alone. -/
def pass : Node → Except Fault Unit
  | .gap cause => .error cause.passed
  | null => .ok ()
  | bool _ => .ok ()
  | number scanned => scanned.passed
  | text scanned => scanned.passed
  | list items ending => do
      passItems items
      Fault.check ending.fault?
  | object members ending => do
      passMembers members
      Fault.check ending.passedFault?

def passItems : List Node → Except Fault Unit
  | [] => .ok ()
  | item :: rest => do
      pass item
      passItems rest

def passMembers : List (Scanned String × Node) → Except Fault Unit
  | [] => .ok ()
  | (key, node) :: rest => do
      key.passed
      pass node
      passMembers rest
end

mutual
/-- Reads a value whole.  `room` is how many more lists and objects may be entered. -/
def value (room : Nat) : Node → Except Fault Value
  | .gap cause => .error cause.read
  | null => .ok .null
  | bool value => .ok (.bool value)
  | number scanned => scanned.value.map .number
  | text scanned => scanned.value.map .text
  | list items ending =>
      match room with
      | 0 => .error .nestedTooDeep
      | room + 1 => do
          let values ← valueItems room items
          Fault.check ending.fault?
          return .list values
  | object members ending =>
      match room with
      | 0 => .error .nestedTooDeep
      | room + 1 => do
          let values ← valueMembers room members
          Fault.check ending.fault?
          return .object values

def valueItems (room : Nat) : List Node → Except Fault (List Value)
  | [] => .ok []
  | item :: rest => do
      let first ← value room item
      let others ← valueItems room rest
      return first :: others

def valueMembers (room : Nat) : List (Scanned String × Node) → Except Fault (List (String × Value))
  | [] => .ok []
  | (key, node) :: rest => do
      let name ← key.value
      let first ← value room node
      let others ← valueMembers room rest
      return (name, first) :: others
end

/-- The fault of a node that is not what was expected.  A broken scalar reports what is broken in it; lists
and objects are not looked into. -/
def mismatch (expected : String) : Node → Fault
  | .gap cause => cause.read
  | null => .mismatch .null expected
  | bool value => .mismatch (.bool value) expected
  | number scanned =>
      match scanned.value with
      | .ok value => .mismatch (.number value) expected
      | .error fault => fault
  | text scanned =>
      match scanned.value with
      | .ok value => .mismatch (.text value) expected
      | .error fault => fault
  | list _ _ => .mismatch .list expected
  | object _ _ => .mismatch .object expected

end Node

/-- A list or object that is not closed yet, with what was read of it, last first. -/
inductive Frame where
  | list (items : List Node)
  | object (members : List Member) (key : Scanned String)
deriving Inhabited

/-- What may stand next, with the innermost container that is being read. -/
inductive Place where
  | value
  | firstItem
  | nextItem (items : List Node)
  | afterItem (items : List Node)
  | firstKey
  | nextKey (members : List Member)
  | colon (members : List Member) (key : Scanned String)
  | afterMember (members : List Member)
deriving Inhabited

/-- How far a tree has been built. -/
inductive Progress where
  /-- Something must follow; the containers around the place are still open, innermost first. -/
  | expecting (place : Place) (around : List Frame)
  | complete (node : Node)
  /-- More tokens follow a complete value. -/
  | overlong (node : Node)
  /-- The syntax broke off. -/
  | broken (node : Node)
deriving Inhabited

namespace Progress

/-- The tree of a node that nobody gets past: the containers around it end with it. -/
def cut (node : Node) : List Frame → Node
  | [] => node
  | .list items :: around => cut (.list (items.reverse ++ [node]) .endOfText) around
  | .object members key :: around =>
      cut (.object (members.reverse ++ [(key, node)]) .endOfText) around

def put (node : Node) : List Frame → Progress
  | [] => complete node
  | .list items :: around => expecting (.afterItem (node :: items)) around
  | .object members key :: around => expecting (.afterMember ((key, node) :: members)) around

/-- Puts a scalar where it belongs, unless nobody gets past it. -/
def putScanned (passed : Except Fault Unit) (node : Node) (around : List Frame) : Progress :=
  match passed with
  | .ok _ => put node around
  | .error _ => broken (cut node around)

def startValue (token : Token) (around : List Frame) : Progress :=
  match token with
  | .openList => expecting .firstItem around
  | .openObject => expecting .firstKey around
  | .null => put .null around
  | .bool value => put (.bool value) around
  | .number scanned => putScanned scanned.passed (.number scanned) around
  | .text scanned => putScanned scanned.passed (.text scanned) around
  | .brokenWord fault => broken (cut (.gap (.word fault)) around)
  | .closeList | .closeObject | .colon | .comma | .stray => broken (cut (.gap .stray) around)

def startKey (members : List Member) (token : Token) (around : List Frame) : Progress :=
  match token with
  | .text scanned =>
      match scanned.passed with
      | .ok _ => expecting (.colon members scanned) around
      | .error _ =>
          broken (cut (.object (members.reverse ++ [(scanned, .gap .endOfText)]) .endOfText) around)
  | token => broken (cut (.object members.reverse (.noKey token)) around)

def step (progress : Progress) (token : Token) : Progress :=
  match progress with
  | expecting .value around => startValue token around
  | expecting .firstItem around =>
      match token with
      | .closeList => put (.list [] .closed) around
      | token => startValue token (.list [] :: around)
  | expecting (.nextItem items) around =>
      match token with
      | .closeList => broken (cut (.list (items.reverse ++ [.gap .closedList]) .closed) around)
      | token => startValue token (.list items :: around)
  | expecting (.afterItem items) around =>
      match token with
      | .comma => expecting (.nextItem items) around
      | .closeList => put (.list items.reverse .closed) around
      | _ => broken (cut (.list items.reverse .noSeparator) around)
  | expecting .firstKey around =>
      match token with
      | .closeObject => put (.object [] .closed) around
      | token => startKey [] token around
  | expecting (.nextKey members) around =>
      match token with
      | .closeObject => broken (cut (.object members.reverse .closedAfterComma) around)
      | token => startKey members token around
  | expecting (.colon members key) around =>
      match token with
      | .colon => expecting .value (.object members key :: around)
      | _ => broken (cut (.object (members.reverse ++ [(key, .gap .noColon)]) .endOfText) around)
  | expecting (.afterMember members) around =>
      match token with
      | .comma => expecting (.nextKey members) around
      | .closeObject => put (.object members.reverse .closed) around
      | _ => broken (cut (.object members.reverse .noSeparator) around)
  | complete node => overlong node
  | overlong node => overlong node
  | broken node => broken node

def finish : Progress → Node
  | expecting .value around => cut (.gap .endOfText) around
  | expecting .firstItem around => cut (.list [] .endOfText) around
  | expecting (.nextItem items) around => cut (.list (items.reverse ++ [.gap .endOfText]) .endOfText) around
  | expecting (.afterItem items) around => cut (.list items.reverse .endOfText) around
  | expecting .firstKey around => cut (.object [] .endOfText) around
  | expecting (.nextKey members) around => cut (.object members.reverse .endAfterComma) around
  | expecting (.colon members key) around =>
      cut (.object (members.reverse ++ [(key, .gap .endAfterKey)]) .endOfText) around
  | expecting (.afterMember members) around => cut (.object members.reverse .endOfText) around
  | complete node => node
  | overlong node => node
  | broken node => node

end Progress

/-- A JSON text: its tree, and whether more than blanks follow the value. -/
structure Document where
  root : Node
  trailing : Bool
deriving Inhabited

namespace Document

def ofTokens (tokens : List Token) : Document :=
  let progress := tokens.foldl Progress.step (.expecting .value [])
  ⟨progress.finish, match progress with | .overlong _ => true | _ => false⟩

def ofText (text : String) : Document := ofTokens (Token.all text.toList)

/-- How many lists and objects may be nested. -/
def depthLimit : Nat := 127

/-- Reads the value of a document; nothing may follow it. -/
def read (reader : Nat → Node → Except Fault α) (document : Document) : Except Fault α := do
  let result ← reader depthLimit document.root
  if document.trailing then .error .trailingCharacters else return result

end Document

end VisualEffects.Json
