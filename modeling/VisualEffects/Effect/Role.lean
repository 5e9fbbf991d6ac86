import VisualEffects.Effect.Backend

namespace VisualEffects.Effect

/-! The call that an effect stands for: a source where a pipeline starts, a transform after that.

A blend is neither, because its branch has to be built before it.
-/

/-- Checks that an effect may start a pipeline: it is a source, and the backdrop it shows, if any, is known. -/
def checkSource : Effect → Except Error Unit
  | backdrop .unknown => .error (.invalidSource "backdrop(unknown)")
  | acrylic .unknown _ _ _ _ => .error (.invalidAcrylicSource "unknown")
  | effect => if effect.isSource then .ok () else .error (.invalidSource effect.kind.name)

/-- The call of an effect at the start of a pipeline. -/
def source : Effect → Except Error Source
  | backdrop .window => .ok .backdrop
  | backdrop .host => .ok .hostBackdrop
  | backdrop .unknown => .error (.invalidSource "backdrop(unknown)")
  | solidColor color => .ok (.solidColor color)
  | image uri dpi cache => .ok (.image uri dpi cache)
  | tile uri dpi cache => .ok (.tiles uri dpi cache)
  | acrylic .window color mix amount texture => .ok (.backdropAcrylic color mix amount texture)
  | acrylic .host color mix _ texture => .ok (.hostBackdropAcrylic color mix texture)
  | acrylic .unknown _ _ _ _ => .error (.invalidAcrylicSource "unknown")
  | other => .error (.invalidSource other.kind.name)

/-- The call of an effect after the start of a pipeline, if it is one call. -/
def transform? : Effect → Option Transform
  | opacity value => some (.opacity value)
  | luminance => some .luminanceToAlpha
  | tint color amount => some (.tint color amount)
  | blur amount => some (.blur amount)
  | saturation value => some (.saturation value)
  | _ => none

/-- The check accepts exactly the effects that have a call, and rejects the others with the same error. -/
theorem checkSource_eq_source (effect : Effect) : effect.checkSource = effect.source.map fun _ => () := by
  cases effect with
  | backdrop source => cases source <;> rfl
  | acrylic source => cases source <;> rfl
  | _ => rfl

end VisualEffects.Effect
