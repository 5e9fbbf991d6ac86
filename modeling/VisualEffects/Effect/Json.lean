import VisualEffects.Effect.Basic
import VisualEffects.Json.Tagged

namespace VisualEffects

/-! Effects in JSON: objects with the name of the kind as member `kind`, and the fields of that kind.

The kind may stand anywhere among the members, so an effect is read whole before its fields are looked at.
Its list form starts with the kind.  In a branch, which is itself part of a value that was read whole, the
kind may also be given as its number.
-/

namespace Effect

open Json (Value Fault Draft Layout)

/-- The fields of effects.  Fields of different kinds with one name hold the same type. -/
inductive Field where
  | source
  | color
  | uri
  | dpiMode
  | cacheMode
  | tint
  | tintMix
  | blurAmount
  | textureUri
  | value
  | opacity
  | input
  | mode
  | placement
deriving DecidableEq, Repr

instance : Json.Fields Field where
  Content
    | .source => Backdrop
    | .color => Color
    | .uri => String
    | .dpiMode => DpiMode
    | .cacheMode => CacheMode
    | .tint => Color
    | .tintMix => Float
    | .blurAmount => Float
    | .textureUri => Option String
    | .value => Float
    | .opacity => Float
    | .input => List Effect
    | .mode => BlendMode
    | .placement => Placement
  name
    | .source => "source"
    | .color => "color"
    | .uri => "uri"
    | .dpiMode => "dpi_mode"
    | .cacheMode => "cache_mode"
    | .tint => "tint"
    | .tintMix => "tint_mix"
    | .blurAmount => "blur_amount"
    | .textureUri => "texture_uri"
    | .value => "value"
    | .opacity => "opacity"
    | .input => "input"
    | .mode => "mode"
    | .placement => "placement"

def Field.isRequired : Field → Bool
  | .dpiMode | .cacheMode | .blurAmount | .textureUri | .mode | .placement => false
  | _ => true

/-- The fields of a kind, in the order of the list form. -/
def Kind.fields : Kind → List Field
  | .backdrop => [.source]
  | .solidColor => [.color]
  | .image => [.uri, .dpiMode, .cacheMode]
  | .tile => [.uri, .dpiMode, .cacheMode]
  | .acrylic => [.source, .tint, .tintMix, .blurAmount, .textureUri]
  | .opacity => [.value]
  | .luminance => []
  | .tint => [.color, .opacity]
  | .blur => [.value]
  | .saturation => [.value]
  | .blend => [.input, .mode, .placement]

def Kind.layout (kind : Kind) : Layout Field :=
  ⟨"struct variant EffectDescriptor::" ++ Json.Choice.title kind, kind.fields, Field.isRequired⟩

/-- The effect of a kind with the fields that were read; the first missing field that has no default is
reported. -/
def ofDraft (kind : Kind) (draft : Draft Field) : Except Fault Effect :=
  match kind with
  | .backdrop => do return .backdrop (← draft.need .source)
  | .solidColor => do return .solidColor (← draft.need .color)
  | .image => do
      return .image (← draft.need .uri) ((draft .dpiMode).getD (default : DpiMode))
        ((draft .cacheMode).getD (default : CacheMode))
  | .tile => do
      return .tile (← draft.need .uri) ((draft .dpiMode).getD (default : DpiMode))
        ((draft .cacheMode).getD (default : CacheMode))
  | .acrylic => do
      return .acrylic (← draft.need .source) (← draft.need .tint) (← draft.need .tintMix)
        ((draft .blurAmount).getD (0 : Float)) ((draft .textureUri).getD none)
  | .opacity => do return .opacity (← draft.need .value)
  | .luminance => .ok .luminance
  | .tint => do return .tint (← draft.need .color) (← draft.need .opacity)
  | .blur => do return .blur (← draft.need .value)
  | .saturation => do return .saturation (← draft.need .value)
  | .blend => do
      return .blend (← draft.need .input) ((draft .mode).getD (default : BlendMode))
        ((draft .placement).getD (default : Placement))

def readField : (field : Field) → field ≠ .input → Value → Except Fault (Json.Fields.Content field)
  | .source, _ => (Json.Choice.readValue : Value → Except Fault Backdrop)
  | .color, _ => Color.readValue
  | .uri, _ => Value.readText
  | .dpiMode, _ => (Json.Choice.readValue : Value → Except Fault DpiMode)
  | .cacheMode, _ => (Json.Choice.readValue : Value → Except Fault CacheMode)
  | .tint, _ => Color.readValue
  | .tintMix, _ => Value.readReal
  | .blurAmount, _ => Value.readReal
  | .textureUri, _ => Value.readOptional Value.readText
  | .value, _ => Value.readReal
  | .opacity, _ => Value.readReal
  | .mode, _ => (Json.Choice.readValue : Value → Except Fault BlendMode)
  | .placement, _ => (Json.Choice.readValue : Value → Except Fault Placement)

def kindKey : String := "kind"

def title : String := "internally tagged enum EffectDescriptor"

def allKinds : List Kind := Json.Choice.all

/-- Reads a kind from a value: its name, or its number. -/
def readKind : Value → Except Fault Kind
  | .text name => Json.Choice.ofName name
  | .number (.integer n) =>
      if 0 ≤ n then
        match allKinds[n.toNat]? with
        | some kind => .ok kind
        | none => .error (.unacceptable (.number (.integer n))
            ("variant index 0 <= i < " ++ toString allKinds.length))
      else .error (.mismatch (.number (.integer n)) "variant identifier")
  | other => .error (other.mismatch "variant identifier")

/-- The kind among members; it must be there once. -/
def kindAmong : List (String × Value) → Option Kind → Except Fault Kind
  | [], some kind => .ok kind
  | [], none => .error (.missingField kindKey)
  | (name, value) :: rest, found =>
      if name = kindKey then
        if found.isSome then .error (.repeatedField kindKey)
        else do kindAmong rest (some (← readKind value))
      else kindAmong rest found

mutual
def readValue : Value → Except Fault Effect
  | .object members => do
      let kind ← kindAmong members none
      ofDraft kind (← readMembers kind members Draft.empty)
  | .list [] => .error (.missingField kindKey)
  | .list (first :: rest) => do
      let kind ← readKind first
      ofDraft kind (← readItems kind 0 rest kind.fields Draft.empty)
  | other => .error (other.mismatch title)

/-- Reads the members of an effect; those that are no fields of its kind are ignored. -/
def readMembers (kind : Kind) : List (String × Value) → Draft Field → Except Fault (Draft Field)
  | [], draft => .ok draft
  | (name, value) :: rest, draft =>
      match kind.layout.field? name with
      | none => readMembers kind rest draft
      | some field => do
          let draft ← draft.putOnce field
            (if isInput : field = .input then (readBranch value).map fun branch => isInput ▸ branch
            else readField field isInput value)
          readMembers kind rest draft

/-- Reads the fields of an effect in their order. -/
def readItems (kind : Kind) (index : Nat) : List Value → List Field → Draft Field → Except Fault (Draft Field)
  | [], fields, draft => do
      kind.layout.checkAbsent index fields
      return draft
  | value :: rest, [], _ => .error (Layout.overlong index (value :: rest))
  | value :: rest, field :: fields, draft => do
      let content ←
        if isInput : field = .input then (readBranch value).map fun branch => isInput ▸ branch
        else readField field isInput value
      readItems kind (index + 1) rest fields (draft.put field content)

def readBranch : Value → Except Fault (List Effect)
  | .list items => readEffects items
  | other => .error (other.mismatch "a sequence")

def readEffects : List Value → Except Fault (List Effect)
  | [] => .ok []
  | value :: rest => do
      let first ← readValue value
      let others ← readEffects rest
      return first :: others
end

def ofFields (kind : Kind) : Value → Except Fault Effect
  | .object members => do ofDraft kind (← readMembers kind members Draft.empty)
  | .list items => do ofDraft kind (← readItems kind 0 items kind.fields Draft.empty)
  | other => .error (other.mismatch title)

def readNode (room : Nat) (node : Json.Node) : Except Fault Effect := do
  let (kind, fields) ← Json.readTagged title kindKey (Json.Choice.readName (α := Kind)) room node
  ofFields kind fields

def ofText (text : String) : Except Fault Effect := (Json.Document.ofText text).read readNode

private def imageMembers (uri : String) (dpi : DpiMode) (cache : CacheMode) : List (String × Value) :=
  [("uri", .text uri), ("dpi_mode", Json.Choice.toValue dpi), ("cache_mode", Json.Choice.toValue cache)]

mutual
def toValue : Effect → Value
  | .backdrop source => .object [(kindKey, .text "backdrop"), ("source", Json.Choice.toValue source)]
  | .solidColor color => .object [(kindKey, .text "solid_color"), ("color", color.toValue)]
  | .image uri dpi cache => .object ((kindKey, .text "image") :: imageMembers uri dpi cache)
  | .tile uri dpi cache => .object ((kindKey, .text "tile") :: imageMembers uri dpi cache)
  | .acrylic source color mix amount texture =>
      .object ([(kindKey, .text "acrylic"), ("source", Json.Choice.toValue source), ("tint", color.toValue),
        ("tint_mix", .real mix), ("blur_amount", .real amount)] ++
          Value.optionalMember "texture_uri" .text texture)
  | .opacity value => .object [(kindKey, .text "opacity"), ("value", .real value)]
  | .luminance => .object [(kindKey, .text "luminance")]
  | .tint color amount =>
      .object [(kindKey, .text "tint"), ("color", color.toValue), ("opacity", .real amount)]
  | .blur amount => .object [(kindKey, .text "blur"), ("value", .real amount)]
  | .saturation value => .object [(kindKey, .text "saturation"), ("value", .real value)]
  | .blend branch mode placement =>
      .object [(kindKey, .text "blend"), ("input", .list (toValues branch)),
        ("mode", Json.Choice.toValue mode), ("placement", Json.Choice.toValue placement)]

def toValues : List Effect → List Value
  | [] => []
  | effect :: rest => toValue effect :: toValues rest
end

end Effect

end VisualEffects
