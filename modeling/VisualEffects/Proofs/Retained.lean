import VisualEffects.Proofs.Configuration
import VisualEffects.Proofs.Reading
import VisualEffects.Proofs.Scripts

namespace VisualEffects

/-! What a script keeps when it is written and read back.

A float that is not finite is written as null.  Where a float may be absent null is read as its absence, and everywhere
else reading fails.  So a starting value that is one float may be lost without a fault, and then the property starts
where it does when no value is given.
-/

open Json (Value Node Fault Fields Entry Draft writtenMembers)

namespace Json

theorem isFinite_of_reread {x y : Float} (read : ((Value.real x).reread >>= Value.readReal) = .ok y) :
    x.isFinite = true := by
  cases finite : x.isFinite with
  | true => rfl
  | false =>
      have none := Value.rereadReal?_of_not_finite finite
      rw [Value.rereadReal?, Value.rereadReal, read] at none
      cases none

variable {α φ : Type} [Fields φ] [DecidableEq φ] {entries : List (Entry φ)}

theorem Draft.all_of_foldlM_fill {result : (entry : Entry φ) → Option (Fields.Content entry.1)} {draft after : Draft φ}
    (filled : entries.foldlM (fill result) draft = some after) :
    ∀ entry ∈ entries, ∃ content, result entry = some content := by
  induction entries generalizing draft with
  | nil => exact List.forall_mem_nil _
  | cons entry rest ih =>
      rw [List.foldlM_cons, Option.bind_eq_bind, Option.bind_eq_some_iff] at filled
      obtain ⟨next, here, there⟩ := filled
      obtain ⟨content, found, _⟩ := Option.map_eq_some_iff.mp here
      exact List.forall_mem_cons.mpr ⟨⟨content, found⟩, ih there⟩

namespace Layout

variable {layout : Layout φ} {write : (field : φ) → Fields.Content field → Value}
  (names : (layout.fields.map Fields.name).Nodup) (listed : (entries.map Sigma.fst).Sublist layout.fields)
include names listed

/-- A written record is read only if each of its fields is. -/
theorem all_of_readValue {read : (field : φ) → Value → Except Fault (Fields.Content field)}
    {finish : Draft φ → Except Fault α} {result : α}
    (accepted : ((Value.object (writtenMembers write entries)).reread >>= layout.readValue read finish) = .ok result) :
    ∀ entry ∈ entries, ∃ content, ((write entry.1 entry.2).reread >>= read entry.1) = .ok content := by
  obtain ⟨value, whole, accepted⟩ := bind_eq_ok.mp accepted
  obtain ⟨values, members, rfl⟩ := map_eq_ok.mp whole
  obtain ⟨draft, fields, _⟩ := bind_eq_ok.mp accepted
  have filled := toOption_readMembers read write (Pending.of_sublist names listed)
  rw [bind_eq_ok.mpr ⟨values, members, fields⟩, toOption_ok] at filled
  intro entry inside
  obtain ⟨content, found⟩ := Draft.all_of_foldlM_fill filled.symm entry inside
  exact ⟨content, toOption_eq_some.mp found⟩

theorem all_of_readNode {read : Nat → (field : φ) → Node → Except Fault (Fields.Content field)}
    {finish : Draft φ → Except Fault α} {room : Nat} {result : α}
    (accepted :
      layout.readNode read finish (room + 1) (Value.object (writtenMembers write entries)).node = .ok result) :
    ∀ entry ∈ entries, ∃ content, read room entry.1 (write entry.1 entry.2).node = .ok content := by
  obtain ⟨draft, fields, _⟩ := bind_eq_ok.mp accepted
  have filled := toOption_readNodeMembers (read room) write (Pending.of_sublist names listed)
  rw [fields, toOption_ok] at filled
  intro entry inside
  obtain ⟨content, found⟩ := Draft.all_of_foldlM_fill filled.symm entry inside
  exact ⟨content, toOption_eq_some.mp found⟩

end Layout

theorem Node.all_of_readList {β : Type} {write : β → Value} {read : Nat → Node → Except Fault α} {room : Nat}
    {values : List β} {results : List α}
    (accepted : readList read (room + 1) (Value.list (values.map write)).node = .ok results) :
    ∀ value ∈ values, ∃ result, read room (write value).node = .ok result := by
  obtain ⟨found, items, -⟩ := bind_eq_ok.mp accepted
  clear accepted
  induction values generalizing found with
  | nil => exact List.forall_mem_nil _
  | cons value rest ih =>
      rw [List.map_cons, Value.nodeItems, readItems] at items
      obtain ⟨first, here, items⟩ := bind_eq_ok.mp items
      obtain ⟨others, there, _⟩ := bind_eq_ok.mp items
      exact List.forall_mem_cons.mpr ⟨⟨first, here⟩, ih others there⟩

end Json

/-- What is read back of a float that may be absent. -/
def retainedReal (x : Option Float) : Option Float := x.filter (·.isFinite)

theorem retainedReal_some (x : Float) : retainedReal (some x) = if x.isFinite then some x else none :=
  Option.filter_some

theorem optional_retainedReal (x : Option Float) :
    Value.optional .real (retainedReal x) = Value.optional .real x := by
  cases x with
  | none => rfl
  | some x => cases finite : x.isFinite <;> simp [retainedReal_some, Value.optional, Value.real, finite]

theorem mem_retainedReal {x : Option Float} {y : Float} :
    y ∈ (retainedReal x).toList ↔ y ∈ x.toList ∧ y.isFinite = true := by
  simp only [Option.mem_toList, retainedReal, Option.filter_eq_some_iff]

namespace Vector

theorem isFinite_of_reread {v w : Vector} (read : (v.toValue.reread >>= readValue) = .ok w) :
    ∀ x ∈ v.components, x.isFinite = true := by
  have listed : (v.entries.map Sigma.fst).Sublist layout.fields := List.Sublist.refl _
  rw [toValue_eq] at read
  have each := Json.Layout.all_of_readValue nodup_names listed read
  obtain ⟨⟨_, x⟩, others⟩ := List.forall_mem_cons.mp each
  obtain ⟨_, y⟩ := List.forall_mem_singleton.mp others
  exact List.forall_mem_cons.mpr ⟨Json.isFinite_of_reread x, List.forall_mem_singleton.mpr (Json.isFinite_of_reread y)⟩

end Vector

/-- What is read back of a motion whose start is one float. -/
def Motion.retained (motion : Motion Float) : Motion Float := { motion with start := retainedReal motion.start }

namespace Request

/-- What is read back of a request; a start that is a vector is read as it was or not at all. -/
def retained : Request → Request
  | opacity motion => .opacity motion.retained
  | translateAxis axis motion => .translateAxis axis motion.retained
  | scale motion => .scale motion.retained
  | rotation motion => .rotation motion.retained
  | sizeAxis axis motion => .sizeAxis axis motion.retained
  | offsetAxis axis motion => .offsetAxis axis motion.retained
  | clip side motion => .clip side motion.retained
  | translate motion => .translate motion
  | size motion => .size motion
  | offset motion => .offset motion

@[simp] theorem kind_retained (request : Request) : request.retained.kind = request.kind := by
  cases request <;> rfl

@[simp] theorem members_retained (request : Request) : request.retained.members = request.members := by
  cases request <;>
    simp [retained, members, Motion.retained, writtenMembers, motionEntries, writeField, optional_retainedReal]

theorem toValue_retained (request : Request) : request.retained.toValue = request.toValue := by
  rw [toValue_eq, toValue_eq, kind_retained, members_retained]

theorem amounts_retained_subset (request : Request) : ∀ x ∈ request.retained.amounts, x ∈ request.amounts := by
  have motion (motion : Motion Float) : ∀ x ∈ motion.retained.values, x ∈ motion.values := by
    simp only [Motion.values, Motion.retained, List.mem_append, mem_retainedReal]
    exact fun x => Or.imp_left And.left
  cases request with
  | translate | size | offset => exact fun _ => id
  | _ => exact motion _

section
variable {α : Type} {write : α → Value} {read : Value → Except Fault α} {motion : Motion α}

/-- A request that is read has a goal that is read, and a start that is read as what may be absent. -/
theorem all_of_readFields {kind : Kind} (before : List (Entry (Field α)))
    (single : before.map Sigma.fst ∈ [[], [.axis], [.side]]) {finish : Draft (Field α) → Except Fault Request}
    {result : Request}
    (accepted : ((Value.object (writtenMembers (writeField write) (before ++ motionEntries motion))).reread >>=
      (layout kind (before.map Sigma.fst)).readValue (readField read) finish) = .ok result) :
    (∃ start, ((Value.optional write motion.start).reread >>= Value.readOptional read) = .ok start) ∧
      ∃ goal, ((write motion.goal).reread >>= read) = .ok goal := by
  have listed : ((before ++ motionEntries motion).map Sigma.fst).Sublist
      (layout kind (before.map Sigma.fst)).fields := by
    rw [List.map_append]
    exact List.Sublist.refl _
  have each := Json.Layout.all_of_readValue (nodup_names kind single) listed accepted
  obtain ⟨_, inMotion⟩ := List.forall_mem_append.mp each
  obtain ⟨start, others⟩ := List.forall_mem_cons.mp inMotion
  exact ⟨start, (List.forall_mem_cons.mp others).1⟩

end

theorem isFinite_of_ofFields {request result : Request}
    (accepted : ((Value.object request.members).reread >>= ofFields request.kind) = .ok result) :
    ∀ x ∈ request.retained.amounts, x.isFinite = true := by
  have real {motion : Motion Float} {goal : Float}
      (read : ((Value.real motion.goal).reread >>= Value.readReal) = .ok goal) :
      ∀ x ∈ motion.retained.values, x.isFinite = true := by
    intro x inside
    rcases List.mem_append.mp inside with start | goal
    · exact (mem_retainedReal.mp start).2
    · exact List.mem_singleton.mp goal ▸ Json.isFinite_of_reread read
  have vector {motion : Motion Vector} {start : Option Vector} {goal : Vector}
      (readStart :
        ((Value.optional Vector.toValue motion.start).reread >>= Value.readOptional Vector.readValue) = .ok start)
      (readGoal : (motion.goal.toValue.reread >>= Vector.readValue) = .ok goal) :
      ∀ x ∈ motion.values.flatMap Vector.components, x.isFinite = true := by
    intro x inside
    obtain ⟨v, value, component⟩ := List.mem_flatMap.mp inside
    rcases List.mem_append.mp value with given | given
    · rw [Option.mem_toList.mp given, Value.optional] at readStart
      obtain ⟨_, whole, readStart⟩ := bind_eq_ok.mp readStart
      obtain ⟨members, again, rfl⟩ := map_eq_ok.mp whole
      obtain ⟨w, readStart, _⟩ := map_eq_ok.mp readStart
      exact Vector.isFinite_of_reread (bind_eq_ok.mpr ⟨_, whole, readStart⟩) x component
    · obtain rfl := List.mem_singleton.mp given
      exact Vector.isFinite_of_reread readGoal x component
  cases request with
  | opacity motion | scale motion | rotation motion =>
      obtain ⟨_, goal, read⟩ := all_of_readFields [] (.head _) accepted
      exact real read
  | translate motion | size motion | offset motion =>
      obtain ⟨⟨start, readStart⟩, goal, readGoal⟩ := all_of_readFields [] (.head _) accepted
      exact vector readStart readGoal
  | translateAxis axis motion | sizeAxis axis motion | offsetAxis axis motion =>
      obtain ⟨_, goal, read⟩ := all_of_readFields [⟨.axis, axis⟩] (.tail _ (.head _)) accepted
      exact real read
  | clip side motion =>
      obtain ⟨_, goal, read⟩ := all_of_readFields [⟨.side, side⟩] (.tail _ (.tail _ (.head _))) accepted
      exact real read

theorem isFinite_of_readNode {request result : Request} {room : Nat} (fits : 2 ≤ room)
    (accepted : readNode room request.toValue.node = .ok result) :
    ∀ x ∈ request.retained.amounts, x.isFinite = true := by
  rw [request.readNode_node fits] at accepted
  exact isFinite_of_ofFields accepted

end Request

namespace TargetSize

def retained (size : TargetSize) : TargetSize :=
  { size with width := retainedReal size.width, height := retainedReal size.height }

theorem toValue_retained (size : TargetSize) : size.retained.toValue = size.toValue := by
  simp only [toValue, retained, optional_retainedReal]

theorem amounts_retained_subset (size : TargetSize) : ∀ x ∈ size.retained.amounts, x ∈ size.amounts := by
  simp only [amounts, retained, List.mem_append, mem_retainedReal]
  exact fun x => Or.imp_left (Or.imp And.left And.left)

theorem isFinite_of_readNode {size result : TargetSize} {room : Nat}
    (accepted : readNode (room + 1) size.toValue.node = .ok result) :
    ∀ x ∈ size.retained.amounts, x.isFinite = true := by
  have real {x y : Float} (read : Node.readReal (Value.real x).node = .ok y) : x.isFinite = true := by
    rw [Value.readReal_node] at read
    exact Json.isFinite_of_reread read
  have listed : (size.entries.map Sigma.fst).Sublist layout.fields := List.Sublist.refl _
  rw [toValue_eq] at accepted
  have each := Json.Layout.all_of_readNode nodup_names listed accepted
  obtain ⟨_, others⟩ := List.forall_mem_cons.mp each
  obtain ⟨_, others⟩ := List.forall_mem_cons.mp others
  obtain ⟨⟨_, actualWidth⟩, others⟩ := List.forall_mem_cons.mp others
  obtain ⟨_, actualHeight⟩ := List.forall_mem_singleton.mp others
  simp only [amounts, retained, List.mem_append, mem_retainedReal]
  rintro x ((width | height) | actual)
  · exact width.2
  · exact height.2
  · rcases List.mem_cons.mp actual with rfl | actual
    · exact real actualWidth
    · exact List.mem_singleton.mp actual ▸ real actualHeight

end TargetSize

namespace StaticTarget

def retained (target : StaticTarget) : StaticTarget := { target with size := target.size.map TargetSize.retained }

theorem toValue_retained (target : StaticTarget) : target.retained.toValue = target.toValue := by
  obtain ⟨name, size⟩ := target
  cases size with
  | none => rfl
  | some size => simp [toValue, retained, Value.optionalMember, TargetSize.toValue_retained]

theorem amounts_retained_subset (target : StaticTarget) : ∀ x ∈ target.retained.amounts, x ∈ target.amounts := by
  obtain ⟨name, size⟩ := target
  cases size with
  | none => exact fun _ => id
  | some size => simpa [amounts, retained] using size.amounts_retained_subset

theorem isFinite_of_readNode {target result : StaticTarget} {room : Nat}
    (accepted : readNode (room + 2) target.toValue.node = .ok result) :
    ∀ x ∈ target.retained.amounts, x.isFinite = true := by
  obtain ⟨name, size⟩ := target
  cases size with
  | none => exact List.forall_mem_nil _
  | some size =>
      have listed : ((entries ⟨name, some size⟩).map Sigma.fst).Sublist layout.fields := List.Sublist.refl _
      rw [toValue_eq] at accepted
      have each := Json.Layout.all_of_readNode nodup_names listed accepted
      obtain ⟨_, others⟩ := List.forall_mem_cons.mp each
      obtain ⟨_, read⟩ := List.forall_mem_singleton.mp others
      obtain ⟨_, read, _⟩ := map_eq_ok.mp read
      simpa [amounts, retained] using TargetSize.isFinite_of_readNode read

end StaticTarget

namespace AnimationScript

/-- What is read back of a script. -/
def retained (script : AnimationScript) : AnimationScript :=
  { script with target := script.target.retained, steps := script.steps.map Request.retained }

theorem toValue_retained (script : AnimationScript) : script.retained.toValue = script.toValue := by
  simp only [toValue, retained, StaticTarget.toValue_retained, List.map_map, Function.comp_def,
    Request.toValue_retained]

theorem amounts_retained_subset (script : AnimationScript) : ∀ x ∈ script.retained.amounts, x ∈ script.amounts := by
  intro x inside
  rcases List.mem_append.mp inside with target | steps
  · exact List.mem_append_left _ (script.target.amounts_retained_subset x target)
  · obtain ⟨_, known, amount⟩ := List.mem_flatMap.mp steps
    obtain ⟨step, member, rfl⟩ := List.mem_map.mp known
    exact List.mem_append_right _ (List.mem_flatMap.mpr ⟨step, member, step.amounts_retained_subset x amount⟩)

theorem isFinite_of_readNode {script result : AnimationScript} {room : Nat}
    (accepted : readNode (room + 4) script.toValue.node = .ok result) :
    ∀ x ∈ script.retained.amounts, x.isFinite = true := by
  rw [toValue_eq] at accepted
  have each := Json.Layout.all_of_readNode nodup_names script.listed_entries accepted
  obtain ⟨inFront, others⟩ := List.forall_mem_append.mp each
  obtain ⟨inFront, _⟩ := List.forall_mem_append.mp inFront
  obtain ⟨⟨_, target⟩, _⟩ := List.forall_mem_cons.mp inFront
  obtain ⟨_, steps⟩ := List.forall_mem_singleton.mp others
  intro x inside
  rcases List.mem_append.mp inside with inTarget | inSteps
  · exact StaticTarget.isFinite_of_readNode target x inTarget
  · obtain ⟨_, known, amount⟩ := List.mem_flatMap.mp inSteps
    obtain ⟨step, member, rfl⟩ := List.mem_map.mp known
    obtain ⟨_, read⟩ := Node.all_of_readList steps step member
    exact Request.isFinite_of_readNode (by omega) read x amount

theorem ofText_eq_ok_iff {script read : AnimationScript}
    (kept : ∀ x ∈ script.amounts, x.isFinite = true → Value.ReadsBack x) :
    ofText script.toValue.line = .ok read ↔
      read = script.retained ∧ ∀ x ∈ script.retained.amounts, x.isFinite = true := by
  -- what is lost leaves no trace in the text, so the text is also the one of the script without it
  have again (finite : ∀ x ∈ script.retained.amounts, x.isFinite = true) :
      ofText script.toValue.line = .ok script.retained := by
    rw [← toValue_retained]
    exact ofText_of_readsBack _ fun x amount => kept x (script.amounts_retained_subset x amount) (finite x amount)
  constructor
  · intro accepted
    have whole := mapError_eq_ok.mp accepted
    rw [Json.Document.ofText_line script.legible_toValue.written, Json.Document.read_eq_ok] at whole
    have finite := isFinite_of_readNode whole.1
    exact ⟨Except.ok.inj (accepted.symm.trans (again finite)), finite⟩
  · rintro ⟨rfl, finite⟩
    exact again finite

end AnimationScript

/-- A track that starts where its property does without a value, if its own starting value is not finite. -/
def Track.retained (track : Track) : Track :=
  match track.start with
  | .explicit x => if x.isFinite then track else { track with start := track.property.startFrom none }
  | .current | .measured _ => track

theorem Track.retained_startFrom (property : Property) (start : Option Float) (goal : Float) (easing : Easing) :
    (Track.mk property (property.startFrom start) goal easing).retained =
      ⟨property, property.startFrom (retainedReal start), goal, easing⟩ := by
  cases start with
  | none => cases property <;> rfl
  | some x => cases finite : x.isFinite <;> simp [retained, Property.startFrom, retainedReal_some, finite]

namespace Request

variable {request : Request}

theorem accepts_retained (hasLayoutSize : Bool) (request : Request) :
    request.retained.accepts hasLayoutSize = request.accepts hasLayoutSize := by
  cases request <;> rfl

/-- The motion of a request that is read back, along one axis. -/
theorem motion_retained (finite : ∀ x ∈ request.retained.amounts, x.isFinite = true) (axis : Axis) :
    request.retained.motion axis = (request.motion axis).retained := by
  cases request with
  | translate motion | size motion | offset motion =>
      obtain ⟨start, goal, easing⟩ := motion
      cases start with
      | none => rfl
      | some v =>
          have start : (v.along axis).isFinite = true := by
            refine finite _ (List.mem_flatMap.mpr ⟨v, List.mem_cons_self, ?_⟩)
            cases axis <;> simp [Vector.along, Vector.components]
          simp [retained, Request.motion, Motion.retained, retainedReal_some, start]
  | _ => rfl

theorem expansion_retained (finite : ∀ x ∈ request.retained.amounts, x.isFinite = true) :
    request.retained.expansion = request.expansion.map Track.retained := by
  have same : request.retained.properties = request.properties := by
    cases request <;> rfl
  simp only [expansion, same, List.map_map, Function.comp_def, Track.retained_startFrom, motion_retained finite,
    Motion.retained]

theorem rejection_retained (request : Request) : request.retained.rejection = request.rejection := by
  cases request <;> rfl

end Request

namespace AnimationScript

variable {τ : Type} [AnimationTarget τ]

/-- Two builders that differ in nothing but in what is read back of some of their tracks stay so. -/
theorem recordAll_retained {steps : List Request}
    (finite : ∀ step ∈ steps, ∀ x ∈ step.retained.amounts, x.isFinite = true) (builder : AnimationBuilder τ)
    (before recorded : List Track) :
    ∃ further answer,
      recordAll steps { builder with tracks := before ++ recorded } =
        ({ builder with tracks := before ++ further }, answer) ∧
      recordAll (steps.map Request.retained) { builder with tracks := before ++ recorded.map Track.retained } =
        ({ builder with tracks := before ++ further.map Track.retained }, answer) := by
  induction steps generalizing recorded with
  | nil => exact ⟨recorded, .ok (), rfl, rfl⟩
  | cons step rest ih =>
      obtain ⟨here, others⟩ := List.forall_mem_cons.mp finite
      have retained : step.retained.suits builder.target = step.suits builder.target := Request.accepts_retained _ step
      simp only [List.map_cons, recordAll, Request.run_apply, retained]
      cases step.suits builder.target with
      | true =>
          obtain ⟨further, answer, first, second⟩ := ih others (recorded ++ step.expansion)
          refine ⟨further, answer, ?_, ?_⟩
          · rw [← first, if_pos rfl, ← List.append_assoc]
          · rw [← second, if_pos rfl, Request.expansion_retained here, List.map_append, ← List.append_assoc]
      | false =>
          refine ⟨recorded, .error step.rejection, rfl, ?_⟩
          rw [if_neg Bool.false_ne_true, Request.rejection_retained]

/-- A script is read back if all of its floats are finite that must be there, and then it is the same but for the
starting values and the authored sizes that are one float and not finite.  It configures a builder as before, with the
same answer, except that a track without its starting value starts where its property does by itself. -/
theorem configure_retained (script : AnimationScript)
    (kept : ∀ x ∈ script.amounts, x.isFinite = true → Value.ReadsBack x) :
    (∀ read, ofText script.toValue.line = .ok read ↔
      read = script.retained ∧ ∀ x ∈ script.retained.amounts, x.isFinite = true) ∧
    ∀ read, ofText script.toValue.line = .ok read → ∀ builder : AnimationBuilder τ,
      (∃ recorded answer,
        script.configure builder =
          ({ script.setTiming builder with tracks := builder.tracks ++ recorded }, answer) ∧
        read.configure builder =
          ({ script.setTiming builder with tracks := builder.tracks ++ recorded.map Track.retained }, answer)) ∧
      ((∀ step ∈ script.steps, step.retained = step) → read.configure builder = script.configure builder) := by
  refine ⟨fun _ => ofText_eq_ok_iff kept, fun read accepted builder => ?_⟩
  obtain ⟨rfl, finite⟩ := (ofText_eq_ok_iff kept).mp accepted
  have timing : script.retained.setTiming builder = script.setTiming builder := rfl
  constructor
  · have inSteps : ∀ step ∈ script.steps, ∀ x ∈ step.retained.amounts, x.isFinite = true := by
      intro step member x amount
      refine finite x (List.mem_append_right _ (List.mem_flatMap.mpr ⟨step.retained, ?_, amount⟩))
      exact List.mem_map_of_mem member
    obtain ⟨recorded, answer, first, second⟩ := recordAll_retained inSteps (script.setTiming builder) builder.tracks []
    refine ⟨recorded, answer, ?_, ?_⟩
    · rw [configure, ← first, List.append_nil, setTiming_eq]
    · rw [configure, timing, ← second, List.map_nil, List.append_nil, setTiming_eq]
      rfl
  · intro unchanged
    have steps : script.retained.steps = script.steps := (List.map_congr_left unchanged).trans (List.map_id _)
    rw [configure, configure, timing, steps]

/-- A script whose only starting value is no number. -/
def unanchored : AnimationScript where
  steps := [.opacity ⟨some (0 / 0), 1, .linear⟩]

theorem readsBack_unanchored : ∀ x ∈ unanchored.amounts, x.isFinite = true → Value.ReadsBack x := by
  simp only [Value.readsBack_iff]
  decide +kernel

theorem ofText_of_unanchored :
    (∀ x ∈ unanchored.amounts, x.isFinite = true → Value.ReadsBack x) ∧
      ofText unanchored.toValue.line = .ok { steps := [.opacity ⟨none, 1, .linear⟩] } :=
  ⟨readsBack_unanchored,
    ((@configure_retained StaticTarget _ unanchored readsBack_unanchored).1 _).mpr (by decide +kernel)⟩

theorem configure_unanchored_ne :
    (∀ x ∈ unanchored.amounts, x.isFinite = true → Value.ReadsBack x) ∧
      ∃ read, ofText unanchored.toValue.line = .ok read ∧
        (read.configure (.ofTarget unanchored.target)).1.tracks ≠
          (unanchored.configure (.ofTarget unanchored.target)).1.tracks := by
  refine ⟨readsBack_unanchored, unanchored.retained, ?_, by decide +kernel⟩
  exact (ofText_eq_ok_iff readsBack_unanchored).mpr ⟨rfl, by decide +kernel⟩

end AnimationScript

end VisualEffects
