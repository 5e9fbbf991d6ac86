import VisualEffects.Color
import VisualEffects.Json.Choice

namespace VisualEffects

/-! Effects: the steps of which a pipeline is made.

A pipeline is a list of effects.  Its first effect is a source, the others transform what comes before them.
A blend holds a whole pipeline of its own, its branch, so a pipeline is a finite tree of lists.
-/

/-- What a source shows from behind the element. -/
inductive Backdrop where
  /-- Content of the same window. -/
  | window
  /-- Content behind the window. -/
  | host
  /-- A backdrop whose name is not known. -/
  | unknown
deriving DecidableEq, Repr, Inhabited

inductive DpiMode where
  | useSourceDpi
  | ignore
  | displayDpiOnly
  | displayDpi
deriving DecidableEq, Repr

inductive CacheMode where
  | standard
  | disabled
  | overwrite
deriving DecidableEq, Repr

/-- How a branch is combined with the chain before it. -/
inductive BlendMode where
  | multiply
  | screen
  | darken
  | lighten
  | dissolve
  | colorBurn
  | linearBurn
  | darkerColor
  | lighterColor
  | colorDodge
  | linearDodge
  | overlay
  | softLight
  | hardLight
  | vividLight
  | linearLight
  | pinLight
  | hardMix
  | difference
  | exclusion
  | hue
  | saturation
  | color
  | luminosity
  | subtract
  | division
deriving DecidableEq, Repr

/-- Whether a branch is drawn above or below the chain before it. -/
inductive Placement where
  | foreground
  | background
deriving DecidableEq, Repr

instance : Inhabited DpiMode := ⟨.displayDpiOnly⟩
instance : Inhabited CacheMode := ⟨.standard⟩
instance : Inhabited BlendMode := ⟨.multiply⟩
instance : Inhabited Placement := ⟨.foreground⟩

instance : Json.Choice Backdrop where
  all := [.window, .host, .unknown]
  label
    | .window => "backdrop"
    | .host => "host_backdrop"
    | .unknown => "unknown"
  fallback? := some .unknown

instance : Json.Choice DpiMode where
  all := [.useSourceDpi, .ignore, .displayDpiOnly, .displayDpi]
  label
    | .useSourceDpi => "use_source_dpi"
    | .ignore => "ignore"
    | .displayDpiOnly => "display_dpi_only"
    | .displayDpi => "display_dpi"

instance : Json.Choice CacheMode where
  all := [.standard, .disabled, .overwrite]
  label
    | .standard => "default"
    | .disabled => "disabled"
    | .overwrite => "overwrite"

instance : Json.Choice BlendMode where
  all := [.multiply, .screen, .darken, .lighten, .dissolve, .colorBurn, .linearBurn, .darkerColor, .lighterColor,
    .colorDodge, .linearDodge, .overlay, .softLight, .hardLight, .vividLight, .linearLight, .pinLight, .hardMix,
    .difference, .exclusion, .hue, .saturation, .color, .luminosity, .subtract, .division]
  label
    | .multiply => "multiply"
    | .screen => "screen"
    | .darken => "darken"
    | .lighten => "lighten"
    | .dissolve => "dissolve"
    | .colorBurn => "color_burn"
    | .linearBurn => "linear_burn"
    | .darkerColor => "darker_color"
    | .lighterColor => "lighter_color"
    | .colorDodge => "color_dodge"
    | .linearDodge => "linear_dodge"
    | .overlay => "overlay"
    | .softLight => "soft_light"
    | .hardLight => "hard_light"
    | .vividLight => "vivid_light"
    | .linearLight => "linear_light"
    | .pinLight => "pin_light"
    | .hardMix => "hard_mix"
    | .difference => "difference"
    | .exclusion => "exclusion"
    | .hue => "hue"
    | .saturation => "saturation"
    | .color => "color"
    | .luminosity => "luminosity"
    | .subtract => "subtract"
    | .division => "division"

instance : Json.Choice Placement where
  all := [.foreground, .background]
  label
    | .foreground => "foreground"
    | .background => "background"
  aliases := [("above", .foreground), ("below", .background)]
  known := ["above", "foreground", "background", "below"]

inductive Effect where
  | backdrop (source : Backdrop)
  | solidColor (color : Color)
  | image (uri : String) (dpi : DpiMode) (cache : CacheMode)
  | tile (uri : String) (dpi : DpiMode) (cache : CacheMode)
  /-- A tinted, blurred backdrop with an optional noise texture; a host backdrop is never blurred. -/
  | acrylic (source : Backdrop) (tint : Color) (tintMix blur : Float) (texture : Option String)
  | opacity (value : Float)
  | luminance
  | tint (color : Color) (opacity : Float)
  | blur (amount : Float)
  | saturation (value : Float)
  | blend (branch : List Effect) (mode : BlendMode) (placement : Placement)
deriving Inhabited

namespace Effect

/-- The kinds of effects, in the order in which kinds are sorted. -/
inductive Kind where
  | backdrop
  | solidColor
  | image
  | tile
  | acrylic
  | opacity
  | luminance
  | tint
  | blur
  | saturation
  | blend
deriving DecidableEq, Repr, Inhabited

namespace Kind

instance : Json.Choice Kind where
  all := [.backdrop, .solidColor, .image, .tile, .acrylic, .opacity, .luminance, .tint, .blur, .saturation, .blend]
  label
    | .backdrop => "backdrop"
    | .solidColor => "solid_color"
    | .image => "image"
    | .tile => "tile"
    | .acrylic => "acrylic"
    | .opacity => "opacity"
    | .luminance => "luminance"
    | .tint => "tint"
    | .blur => "blur"
    | .saturation => "saturation"
    | .blend => "blend"

def name (kind : Kind) : String := Json.Choice.label kind

/-- Whether effects of this kind may start a pipeline, and only start it. -/
def isSource : Kind → Bool
  | .backdrop | .solidColor | .image | .tile | .acrylic => true
  | _ => false

end Kind

def kind : Effect → Kind
  | backdrop _ => .backdrop
  | solidColor _ => .solidColor
  | image _ _ _ => .image
  | tile _ _ _ => .tile
  | acrylic _ _ _ _ _ => .acrylic
  | opacity _ => .opacity
  | luminance => .luminance
  | tint _ _ => .tint
  | blur _ => .blur
  | saturation _ => .saturation
  | blend _ _ _ => .blend

def isSource (effect : Effect) : Bool := effect.kind.isSource

mutual
/-- Equality with amounts compared as numbers, so an amount that is no number differs from itself. -/
def same : Effect → Effect → Bool
  | backdrop s₁, backdrop s₂ => s₁ == s₂
  | solidColor c₁, solidColor c₂ => c₁ == c₂
  | image u₁ d₁ m₁, image u₂ d₂ m₂ => u₁ == u₂ && d₁ == d₂ && m₁ == m₂
  | tile u₁ d₁ m₁, tile u₂ d₂ m₂ => u₁ == u₂ && d₁ == d₂ && m₁ == m₂
  | acrylic s₁ t₁ m₁ b₁ x₁, acrylic s₂ t₂ m₂ b₂ x₂ => s₁ == s₂ && t₁ == t₂ && m₁ == m₂ && b₁ == b₂ && x₁ == x₂
  | opacity v₁, opacity v₂ => v₁ == v₂
  | luminance, luminance => true
  | tint c₁ o₁, tint c₂ o₂ => c₁ == c₂ && o₁ == o₂
  | blur v₁, blur v₂ => v₁ == v₂
  | saturation v₁, saturation v₂ => v₁ == v₂
  | blend b₁ m₁ p₁, blend b₂ m₂ p₂ => sameList b₁ b₂ && m₁ == m₂ && p₁ == p₂
  | _, _ => false

def sameList : List Effect → List Effect → Bool
  | [], [] => true
  | e₁ :: r₁, e₂ :: r₂ => same e₁ e₂ && sameList r₁ r₂
  | _, _ => false
end

end Effect

end VisualEffects
