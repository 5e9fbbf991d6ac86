import VisualEffects.Json.Read
import VisualEffects.Text.Blank

namespace VisualEffects

/-! Colors: four bytes, not premultiplied.

A color is written as eight lowercase hexadecimal digits after a `#`.  It is read from six or eight digits
with or without the `#`, from an object of channels between 0 and 1, or from a list of three or four of them.
-/

structure Color where
  red : UInt8
  green : UInt8
  blue : UInt8
  /-- 255 is opaque. -/
  alpha : UInt8
deriving DecidableEq, Repr, Inhabited

namespace Color

def solid (red green blue : UInt8) : Color := ⟨red, green, blue, 255⟩

def transparent : Color := ⟨0, 0, 0, 0⟩
def black : Color := solid 0 0 0
def white : Color := solid 255 255 255
def pureRed : Color := solid 255 0 0

/-- A channel between 0 and 1 as a byte: out of range it is clamped, between two bytes the nearer one is
taken and the greater one halfway, and what is no number is 0. -/
def byteOfUnit (x : Float) : UInt8 :=
  let clamped := if x < 0 then 0 else if 1 < x then 1 else x
  let scaled := clamped * 255
  let floor := scaled.toUInt8
  if 0.5 ≤ scaled - floor.toFloat then floor + 1 else floor

def ofUnit (red green blue alpha : Float) : Color :=
  ⟨byteOfUnit red, byteOfUnit green, byteOfUnit blue, byteOfUnit alpha⟩

inductive HexFault where
  | notAscii
  | wrongLength
  | wrongByte (pair : List Char)
deriving DecidableEq, Repr

def HexFault.message : HexFault → String
  | notAscii => "hex color must be ASCII"
  | wrongLength => "hex color must be #RRGGBB or #RRGGBBAA (case-insensitive)"
  | wrongByte pair => "invalid hex byte \"" ++ String.ofList pair ++ "\""

/-- The byte that two characters spell; the first of them may be a plus sign. -/
def byteOfPair (first second : Char) : Except HexFault UInt8 :=
  let digits := if first = '+' then [second] else [first, second]
  match Text.Hex.value? digits with
  | some n => .ok n.toUInt8
  | none => .error (.wrongByte [first, second])

/-- The digits of a text: without the blanks around it and without a `#` at its start. -/
def digitsOf (cs : List Char) : List Char :=
  match Text.trimmed cs with
  | '#' :: rest => rest
  | rest => rest

def ofDigits (digits : List Char) : Except HexFault Color :=
  if !digits.all (·.toNat < 0x80) then .error .notAscii
  else match digits with
    | [r₁, r₂, g₁, g₂, b₁, b₂] => do
        return solid (← byteOfPair r₁ r₂) (← byteOfPair g₁ g₂) (← byteOfPair b₁ b₂)
    | [r₁, r₂, g₁, g₂, b₁, b₂, a₁, a₂] => do
        return ⟨← byteOfPair r₁ r₂, ← byteOfPair g₁ g₂, ← byteOfPair b₁ b₂, ← byteOfPair a₁ a₂⟩
    | _ => .error .wrongLength

def ofHex (text : String) : Except HexFault Color := ofDigits (digitsOf text.toList)

def hexDigits (color : Color) : List Char :=
  [color.red, color.green, color.blue, color.alpha].flatMap fun byte => Text.Hex.digits 2 byte.toNat

def toHex (color : Color) : String := String.ofList ('#' :: color.hexDigits)

def toValue (color : Color) : Json.Value := .text color.toHex

structure Channels where
  red : Option Float := none
  green : Option Float := none
  blue : Option Float := none
  alpha : Option Float := none

/-- A channel that has not been read before; `none` when it has, or when the value is no number. -/
def channelOnce (before : Option Float) (value : Json.Value) : Option (Option Float) :=
  match before, value.readReal with
  | none, .ok x => some (some x)
  | _, _ => none

/-- The channels among members; members with other names are ignored. -/
def channels? : List (String × Json.Value) → Channels → Option Channels
  | [], found => some found
  | (name, value) :: rest, found =>
      if name = "r" then do channels? rest { found with red := ← channelOnce found.red value }
      else if name = "g" then do channels? rest { found with green := ← channelOnce found.green value }
      else if name = "b" then do channels? rest { found with blue := ← channelOnce found.blue value }
      else if name = "a" then do channels? rest { found with alpha := ← channelOnce found.alpha value }
      else channels? rest found

/-- The color of an object with three channels, and with the fourth if it is not opaque. -/
def ofMembers? (members : List (String × Json.Value)) : Option Color := do
  let found ← channels? members {}
  return ofUnit (← found.red) (← found.green) (← found.blue) (found.alpha.getD 1)

def numbers? : List Json.Value → Option (List Float)
  | [] => some []
  | .number value :: rest => (numbers? rest).map (value.toFloat :: ·)
  | _ :: _ => none

def readValue : Json.Value → Except Json.Fault Color
  | .text text => (ofHex text).mapError fun fault => .stated fault.message
  | .object members =>
      match ofMembers? members with
      | some color => .ok color
      | none => .error .noColorForm
  | .list items =>
      match numbers? items with
      | none => .error .noColorForm
      | some [red, green, blue] => .ok (ofUnit red green blue 1)
      | some [red, green, blue, alpha] => .ok (ofUnit red green blue alpha)
      | some _ => .error (.stated "rgba array must have len 3 ([r,g,b]) or 4 ([r,g,b,a])")
  | _ => .error .noColorForm

/-- Reads a color straight from a text; its value is read whole first. -/
def readNode (room : Nat) (node : Json.Node) : Except Json.Fault Color := do
  readValue (← node.value room)

end Color

end VisualEffects
