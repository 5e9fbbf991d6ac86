import VisualEffects.Animation.Script
import VisualEffects.Proofs.Records

namespace VisualEffects

/-! Scripts are read back from what is written of them.

A script, its target and the size of the target are read straight from the text, a request is read whole before
its kind decides what its members are.  What is absent is left out or written as null, and neither is mistaken
for anything that is there.  So a script comes back as it was as soon as each of its floats does.
-/

open Json (Value Fault Fields Draft Entry LawfulChoice writtenMembers)

instance : LawfulChoice Axis := ⟨by intro value; cases value <;> rfl⟩
instance : LawfulChoice Side := ⟨by intro value; cases value <;> rfl⟩
instance : LawfulChoice Easing := ⟨by intro value; cases value <;> rfl⟩

namespace Vector

def components (v : Vector) : List Float := [v.x, v.y]

def entries (v : Vector) : List (Entry Axis) := [⟨.x, v.x⟩, ⟨.y, v.y⟩]

theorem toValue_eq (v : Vector) : v.toValue = .object (writtenMembers (fun _ => Value.real) v.entries) := rfl

theorem legible_toValue (v : Vector) : v.toValue.Legible 1 := by
  rw [toValue_eq]
  exact .object (Json.legible_writtenMembers (fun _ => .real) v.entries)

theorem nodup_names : (layout.fields.map Fields.name).Nodup := by decide

theorem readValue_toValue {v : Vector} (kept : ∀ x ∈ v.components, Value.ReadsBack x) :
    (v.toValue.reread >>= readValue) = .ok v := by
  have listed : (v.entries.map Sigma.fst).Sublist layout.fields := List.Sublist.refl _
  obtain ⟨x, others⟩ := List.forall_mem_cons.mp kept
  rw [toValue_eq, readValue, Json.Layout.readValue_of_kept nodup_names listed]
  · rfl
  · exact List.forall_mem_cons.mpr ⟨Value.readsBack_iff.mp x,
      List.forall_mem_singleton.mpr (Value.readsBack_iff.mp (List.forall_mem_singleton.mp others))⟩

end Vector

/-- The values between which a motion goes, as far as they are given. -/
def Motion.values (motion : Motion α) : List α := motion.start.toList ++ [motion.goal]

namespace Request

instance : LawfulChoice Kind := ⟨by intro value; cases value <;> rfl⟩

variable {α : Type}

def kind : Request → Kind
  | opacity _ => .opacity
  | translateAxis _ _ => .translateAxis
  | translate _ => .translate
  | scale _ => .scale
  | rotation _ => .rotation
  | sizeAxis _ _ => .sizeAxis
  | size _ => .size
  | offsetAxis _ _ => .offsetAxis
  | offset _ => .offset
  | clip _ _ => .clip

/-- All floats of a request, in the order in which they are written. -/
def amounts : Request → List Float
  | opacity motion | scale motion | rotation motion => motion.values
  | translateAxis _ motion | sizeAxis _ motion | offsetAxis _ motion | clip _ motion => motion.values
  | translate motion | size motion | offset motion => motion.values.flatMap Vector.components

def writeField (write : α → Value) : (field : Field α) → Fields.Content field → Value
  | .axis => (Json.Choice.toValue : Axis → Value)
  | .side => (Json.Choice.toValue : Side → Value)
  | .start => Value.optional write
  | .goal => write
  | .easing => (Json.Choice.toValue : Easing → Value)

def motionEntries (motion : Motion α) : List (Entry (Field α)) :=
  [⟨.start, motion.start⟩, ⟨.goal, motion.goal⟩, ⟨.easing, motion.easing⟩]

/-- The members of a written request besides its kind. -/
def members : Request → List (String × Value)
  | opacity motion | scale motion | rotation motion => writtenMembers (writeField Value.real) (motionEntries motion)
  | translateAxis axis motion | sizeAxis axis motion | offsetAxis axis motion =>
      writtenMembers (writeField Value.real) (⟨.axis, axis⟩ :: motionEntries motion)
  | translate motion | size motion | offset motion =>
      writtenMembers (writeField Vector.toValue) (motionEntries motion)
  | clip side motion => writtenMembers (writeField Value.real) (⟨.side, side⟩ :: motionEntries motion)

theorem toValue_eq (request : Request) :
    request.toValue = .object ((kindKey, .text (Json.Choice.label request.kind)) :: request.members) := by
  cases request <;> rfl

theorem Field.name_ne_kindKey (field : Field α) : Fields.name field ≠ kindKey := by
  cases field <;> simp [Fields.name, kindKey]

theorem nodup_names (kind : Kind) {before : List (Field α)} (single : before ∈ [[], [.axis], [.side]]) :
    ((layout kind before).fields.map Fields.name).Nodup := by
  simp only [List.mem_cons, List.not_mem_nil, or_false] at single
  rcases single with rfl | rfl | rfl
  · exact (by decide : ["from", "to", "easing"].Nodup)
  · exact (by decide : ["axis", "from", "to", "easing"].Nodup)
  · exact (by decide : ["side", "from", "to", "easing"].Nodup)

theorem members_ne_kindKey (request : Request) : ∀ member ∈ request.members, member.1 ≠ kindKey := by
  cases request <;> exact Json.writtenMembers_ne Field.name_ne_kindKey _ _

theorem legible_writeField {write : α → Value} (each : ∀ value, (write value).Legible 1) (field : Field α)
    (content : Fields.Content field) : (writeField write field content).Legible 1 := by
  cases field with
  | axis | side | easing => exact .text _
  | start => exact .optional fun value _ => each value
  | goal => exact each content

theorem legible_toValue (request : Request) : request.toValue.Legible 2 := by
  rw [toValue_eq]
  refine .object (List.forall_mem_cons.mpr ⟨.text _, ?_⟩)
  cases request with
  | translate | size | offset =>
      exact Json.legible_writtenMembers (legible_writeField Vector.legible_toValue) _
  | _ => exact Json.legible_writtenMembers (legible_writeField fun _ => .real _) _

section
variable {write : α → Value} {read : Value → Except Fault α} (refuses : ∃ fault, read .null = .error fault)
  {motion : Motion α} (kept : ∀ value ∈ motion.values, ((write value).reread >>= read) = .ok value)
include refuses kept

theorem readField_motionEntries : ∀ entry ∈ motionEntries motion,
    ((writeField write entry.1 entry.2).reread >>= readField read entry.1) = .ok entry.2 := by
  obtain ⟨starts, goal⟩ := List.forall_mem_append.mp kept
  have start : ∀ value ∈ motion.start, ((write value).reread >>= read) = .ok value :=
    fun value given => starts value (Option.mem_toList.mpr given)
  refine List.forall_mem_cons.mpr ⟨Value.readOptional_reread refuses start, List.forall_mem_cons.mpr ⟨?_, ?_⟩⟩
  · exact goal motion.goal (List.mem_singleton_self _)
  · exact List.forall_mem_singleton.mpr (Json.Choice.readValue_reread motion.easing)

/-- The fields of a request, with at most a direction before its motion, all come back. -/
theorem readFields_written (kind : Kind) (before : List (Entry (Field α)))
    (single : before.map Sigma.fst ∈ [[], [.axis], [.side]])
    (leads : ∀ entry ∈ before, ((writeField write entry.1 entry.2).reread >>= readField read entry.1) = .ok entry.2)
    (finish : Draft (Field α) → Except Fault Request) :
    ((Value.object (writtenMembers (writeField write) (before ++ motionEntries motion))).reread >>=
      (layout kind (before.map Sigma.fst)).readValue (readField read) finish) =
      finish (Draft.ofEntries (before ++ motionEntries motion)) := by
  have listed : ((before ++ motionEntries motion).map Sigma.fst).Sublist
      (layout kind (before.map Sigma.fst)).fields := by
    rw [List.map_append]
    exact List.Sublist.refl _
  exact Json.Layout.readValue_of_kept (nodup_names kind single) listed
    (List.forall_mem_append.mpr ⟨leads, readField_motionEntries refuses kept⟩)

end

theorem readReal_values {motion : Motion Float} (kept : ∀ x ∈ motion.values, Value.ReadsBack x) :
    ∀ x ∈ motion.values, ((Value.real x).reread >>= Value.readReal) = .ok x :=
  fun x inside => Value.readsBack_iff.mp (kept x inside)

theorem readValue_values {motion : Motion Vector}
    (kept : ∀ x ∈ motion.values.flatMap Vector.components, Value.ReadsBack x) :
    ∀ v ∈ motion.values, (v.toValue.reread >>= Vector.readValue) = .ok v := by
  intro v inside
  exact Vector.readValue_toValue fun x component => kept x (List.mem_flatMap.mpr ⟨v, inside, component⟩)

theorem ofFields_members {request : Request} (kept : ∀ x ∈ request.amounts, Value.ReadsBack x) :
    ((Value.object request.members).reread >>= ofFields request.kind) = .ok request := by
  cases request with
  | opacity motion | scale motion | rotation motion =>
      refine (readFields_written ⟨_, rfl⟩ (readReal_values kept) _ [] (.head _) ?_ _).trans rfl
      exact List.forall_mem_nil _
  | translate motion | size motion | offset motion =>
      refine (readFields_written ⟨_, rfl⟩ (readValue_values kept) _ [] (.head _) ?_ _).trans rfl
      exact List.forall_mem_nil _
  | translateAxis axis motion | sizeAxis axis motion | offsetAxis axis motion =>
      refine (readFields_written ⟨_, rfl⟩ (readReal_values kept) _ [⟨.axis, axis⟩] (.tail _ (.head _)) ?_ _).trans rfl
      exact List.forall_mem_singleton.mpr (Json.Choice.readValue_reread axis)
  | clip side motion =>
      have single : [Field.side] ∈ [[], [Field.axis], [(.side : Field Float)]] := .tail _ (.tail _ (.head _))
      refine (readFields_written ⟨_, rfl⟩ (readReal_values kept) _ [⟨.side, side⟩] single ?_ _).trans rfl
      exact List.forall_mem_singleton.mpr (Json.Choice.readValue_reread side)

/-- The kind of a request is read where it stands, its other members are read whole and then looked at as its fields. -/
theorem readNode_node (request : Request) {room : Nat} (fits : 2 ≤ room) :
    readNode room request.toValue.node = ((Value.object request.members).reread >>= ofFields request.kind) := by
  have tag : Json.Choice.readName (.text (.whole (.ok (Json.Choice.label request.kind)))) = .ok request.kind :=
    LawfulChoice.ofName_label request.kind
  have shallow := Nat.le_trans request.legible_toValue.shallow fits
  rw [toValue_eq] at shallow ⊢
  rw [readNode, Json.readTagged_node request.members_ne_kindKey tag shallow, Value.reread]
  cases Value.rereadMembers request.members <;> rfl

theorem readNode_toValue {request : Request} (kept : ∀ x ∈ request.amounts, Value.ReadsBack x) {room : Nat}
    (fits : 2 ≤ room) : readNode room request.toValue.node = .ok request := by
  rw [request.readNode_node fits, ofFields_members kept]

end Request

namespace TargetSize

def amounts (size : TargetSize) : List Float :=
  size.width.toList ++ size.height.toList ++ [size.actualWidth, size.actualHeight]

def entries (size : TargetSize) : List (Entry Field) :=
  [⟨.width, size.width⟩, ⟨.height, size.height⟩, ⟨.actualWidth, size.actualWidth⟩,
    ⟨.actualHeight, size.actualHeight⟩]

def writeField : (field : Field) → Fields.Content field → Value
  | .width => Value.optional .real
  | .height => Value.optional .real
  | .actualWidth => Value.real
  | .actualHeight => Value.real

theorem toValue_eq (size : TargetSize) : size.toValue = .object (writtenMembers writeField size.entries) := rfl

theorem legible_writeField (field : Field) (content : Fields.Content field) : (writeField field content).Legible 0 := by
  cases field with
  | width | height => exact .optional fun _ _ => .real _
  | actualWidth | actualHeight => exact .real _

theorem nodup_names : (layout.fields.map Fields.name).Nodup := by decide

theorem readNode_toValue {size : TargetSize} (kept : ∀ x ∈ size.amounts, Value.ReadsBack x) (room : Nat) :
    readNode (room + 1) size.toValue.node = .ok size := by
  have real {x : Float} (back : Value.ReadsBack x) : Json.Node.readReal (Value.real x).node = .ok x :=
    (Value.readReal_node x).trans (Value.readsBack_iff.mp back)
  have optional {authored : Option Float} (back : ∀ x ∈ authored.toList, Value.ReadsBack x) :
      Json.Node.readOptional Json.Node.readReal (Value.optional .real authored).node = .ok authored :=
    Json.Node.readOptional_node ⟨_, rfl⟩ fun x given => real (back x (Option.mem_toList.mpr given))
  obtain ⟨authored, measured⟩ := List.forall_mem_append.mp kept
  obtain ⟨width, height⟩ := List.forall_mem_append.mp authored
  have entries : ∀ entry ∈ size.entries, readField room entry.1 (writeField entry.1 entry.2).node = .ok entry.2 := by
    refine List.forall_mem_cons.mpr ⟨optional width, List.forall_mem_cons.mpr ⟨optional height, ?_⟩⟩
    refine List.forall_mem_cons.mpr ⟨real (measured _ List.mem_cons_self), ?_⟩
    exact List.forall_mem_singleton.mpr (real (measured _ (List.mem_cons_of_mem _ List.mem_cons_self)))
  have listed : (size.entries.map Sigma.fst).Sublist layout.fields := List.Sublist.refl _
  exact (Json.Layout.readNode_of_kept nodup_names listed entries).trans rfl

end TargetSize

namespace StaticTarget

def amounts (target : StaticTarget) : List Float := target.size.toList.flatMap TargetSize.amounts

def entries (target : StaticTarget) : List (Entry Field) :=
  ⟨.name, target.name⟩ :: Json.optionalEntry .size some target.size

def writeField : (field : Field) → Fields.Content field → Value
  | .name => Value.text
  | .size => Value.optional TargetSize.toValue

theorem toValue_eq (target : StaticTarget) : target.toValue = .object (writtenMembers writeField target.entries) := by
  obtain ⟨name, size⟩ := target
  cases size <;> rfl

theorem legible_writeField (field : Field) (content : Fields.Content field) : (writeField field content).Legible 1 := by
  cases field with
  | name => exact .text _
  | size =>
      exact .optional fun size _ => .object (Json.legible_writtenMembers TargetSize.legible_writeField size.entries)

theorem nodup_names : (layout.fields.map Fields.name).Nodup := by decide

theorem readNode_toValue {target : StaticTarget} (kept : ∀ x ∈ target.amounts, Value.ReadsBack x) (room : Nat) :
    readNode (room + 2) target.toValue.node = .ok target := by
  have listed : (target.entries.map Sigma.fst).Sublist layout.fields := by
    rw [entries, List.map_cons]
    exact (Json.sublist_optionalEntry Field.size some target.size).cons_cons .name
  have entries : ∀ entry ∈ target.entries,
      readField (room + 1) entry.1 (writeField entry.1 entry.2).node = .ok entry.2 := by
    refine List.forall_mem_cons.mpr ⟨rfl, ?_⟩
    intro entry inside
    obtain ⟨size, given, rfl⟩ := List.mem_map.mp inside
    refine Json.Node.readOptional_of_ok ⟨_, rfl⟩ (TargetSize.readNode_toValue ?_ room)
    exact fun x amount => kept x (List.mem_flatMap.mpr ⟨size, given, amount⟩)
  rw [toValue_eq]
  refine (Json.Layout.readNode_of_kept nodup_names listed entries).trans ?_
  obtain ⟨name, size⟩ := target
  cases size <;> rfl

end StaticTarget

namespace AnimationScript

/-- All floats of a script, in the order in which they are written. -/
def amounts (script : AnimationScript) : List Float := script.target.amounts ++ script.steps.flatMap Request.amounts

def entries (script : AnimationScript) : List (Entry Field) :=
  ⟨.target, script.target⟩ :: Json.optionalEntry .durationMs some script.durationMs ++
    Json.optionalEntry .delayMs some script.delayMs ++ [⟨.steps, script.steps⟩]

def writeField : (field : Field) → Fields.Content field → Value
  | .target => StaticTarget.toValue
  | .durationMs => Value.optional fun count => .natural count.toNat
  | .delayMs => Value.optional fun count => .natural count.toNat
  | .steps => fun steps => .list (steps.map Request.toValue)

theorem toValue_eq (script : AnimationScript) :
    script.toValue = .object (writtenMembers writeField script.entries) := by
  obtain ⟨target, durationMs, delayMs, steps⟩ := script
  cases durationMs <;> cases delayMs <;> rfl

theorem legible_writeField (field : Field) (content : Fields.Content field) : (writeField field content).Legible 3 := by
  cases field with
  | target =>
      have written : (StaticTarget.toValue content).Legible 2 := by
        rw [StaticTarget.toValue_eq]
        exact .object (Json.legible_writtenMembers StaticTarget.legible_writeField _)
      exact written.mono (by decide)
  | durationMs | delayMs => exact .optional fun _ _ => .natural _
  | steps =>
      refine .list fun item inside => ?_
      obtain ⟨request, _, rfl⟩ := List.mem_map.mp inside
      exact request.legible_toValue

theorem readMilliseconds_node (count : UInt64) :
    AnimationOptions.readMilliseconds (Value.natural count.toNat).node = .ok count := by
  rw [AnimationOptions.readMilliseconds, Json.Node.readNatural_node "u64" count.toNat_lt]
  exact congrArg Except.ok count.ofNat_toNat

theorem nodup_names : (layout.fields.map Fields.name).Nodup := by decide

theorem listed_entries (script : AnimationScript) : (script.entries.map Sigma.fst).Sublist layout.fields := by
  have durationMs := Json.sublist_optionalEntry Field.durationMs some script.durationMs
  have delayMs := Json.sublist_optionalEntry Field.delayMs some script.delayMs
  rw [entries, List.map_append, List.map_append, List.map_cons]
  exact ((durationMs.cons_cons .target).append delayMs).append (List.Sublist.refl [.steps])

theorem readNode_toValue {script : AnimationScript} (kept : ∀ x ∈ script.amounts, Value.ReadsBack x) (room : Nat) :
    readNode (room + 4) script.toValue.node = .ok script := by
  obtain ⟨inTarget, inSteps⟩ := List.forall_mem_append.mp kept
  have count (count : UInt64) :
      Json.Node.readOptional AnimationOptions.readMilliseconds (Value.natural count.toNat).node = .ok (some count) :=
    Json.Node.readOptional_of_ok ⟨_, rfl⟩ (readMilliseconds_node count)
  have steps : Json.Node.readList Request.readNode (room + 3) (Value.list (script.steps.map Request.toValue)).node =
      .ok script.steps := by
    refine Json.Node.readList_node fun request inside => Request.readNode_toValue ?_ (by omega)
    exact fun x amount => inSteps x (List.mem_flatMap.mpr ⟨request, inside, amount⟩)
  have entries : ∀ entry ∈ script.entries,
      readField (room + 3) entry.1 (writeField entry.1 entry.2).node = .ok entry.2 := by
    refine List.forall_mem_append.mpr ⟨List.forall_mem_append.mpr ⟨List.forall_mem_cons.mpr ⟨?_, ?_⟩, ?_⟩, ?_⟩
    · exact StaticTarget.readNode_toValue inTarget _
    · exact List.forall_mem_map.mpr fun given _ => count given
    · exact List.forall_mem_map.mpr fun given _ => count given
    · exact List.forall_mem_singleton.mpr steps
  rw [toValue_eq]
  refine (Json.Layout.readNode_of_kept nodup_names script.listed_entries entries).trans ?_
  obtain ⟨target, durationMs, delayMs, steps⟩ := script
  cases durationMs <;> cases delayMs <;> rfl

theorem legible_toValue (script : AnimationScript) : script.toValue.Legible 4 := by
  rw [toValue_eq]
  exact .object (Json.legible_writtenMembers legible_writeField _)

/-- A script whose floats all read back is read back itself.  A float that is not finite does not read back. -/
theorem ofText_of_readsBack (script : AnimationScript) (kept : ∀ x ∈ script.amounts, Value.ReadsBack x) :
    ofText script.toValue.line = .ok script := by
  rw [ofText, Json.Document.ofText_line script.legible_toValue.written]
  simp only [Json.Document.read, Json.Document.depthLimit]
  rw [readNode_toValue kept 123]
  rfl

/-- A script with requests of every kind, a text with escapes, a size whose width is left to the layout, the longest
duration and no delay. -/
def entrance : AnimationScript where
  target := ⟨"panel \"1\"\n", some ⟨none, some 12.5, 640, -0.25⟩⟩
  durationMs := some 18446744073709551615
  steps := [.opacity ⟨some 0, 0.1, .sineEaseIn⟩, .translateAxis .y ⟨none, -3.5, .linear⟩,
    .translate ⟨none, ⟨1e300, -2⟩, .cubicEaseOut⟩, .scale ⟨some (-0.0), 1.5, .linear⟩, .rotation ⟨none, 90, .linear⟩,
    .sizeAxis .x ⟨none, 5e-324, .linear⟩, .size ⟨some ⟨1, 2⟩, ⟨3, 4⟩, .quadraticEaseInOut⟩,
    .offsetAxis .x ⟨some 7, 8, .linear⟩, .offset ⟨some ⟨0.5, 0.25⟩, ⟨1, 2⟩, .linear⟩,
    .clip .bottom ⟨some 1, 0, .circleEaseInOut⟩]

theorem ofText_of_entrance :
    (∀ x ∈ entrance.amounts, Value.ReadsBack x) ∧ ofText entrance.toValue.line = .ok entrance := by
  have kept : ∀ x ∈ entrance.amounts, Value.ReadsBack x := by
    simp only [Value.readsBack_iff]
    decide +kernel
  exact ⟨kept, ofText_of_readsBack entrance kept⟩

end AnimationScript

end VisualEffects
