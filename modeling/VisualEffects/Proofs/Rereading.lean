import VisualEffects.Json.Read
import VisualEffects.Json.Tagged
import VisualEffects.Proofs.Documents

namespace VisualEffects

/-! Reading back what was written.

The readers of choices, of numbers, of optional values and of tagged values, each on the document of a value
that was written for it.  Names come back as they were.  A number comes back as what its text is read as, and a
double that is not finite does not come back at all.  What is absent comes back as absent, since no reader takes
null for something that is there.
-/

namespace Json

/-- A choice whose values are found by their names. -/
class LawfulChoice (α : Type) [Choice α] : Prop where
  ofName_label (value : α) : Choice.ofName (Choice.label value) = .ok value

theorem Choice.readValue_toValue {α : Type} [Choice α] [LawfulChoice α] (value : α) :
    Choice.readValue (Choice.toValue value) = .ok value := LawfulChoice.ofName_label value

theorem Choice.readValue_reread {α : Type} [Choice α] [LawfulChoice α] (value : α) :
    ((Choice.toValue value).reread >>= Choice.readValue) = .ok value := by
  rw [Choice.toValue, Value.reread]
  exact Choice.readValue_toValue value

theorem map_fst_of_rereadMembers {members values : List (String × Value)}
    (read : Value.rereadMembers members = .ok values) : values.map Prod.fst = members.map Prod.fst := by
  induction members generalizing values with
  | nil =>
      cases read
      rfl
  | cons member rest ih =>
      obtain ⟨key, value⟩ := member
      rw [Value.rereadMembers] at read
      cases first : value.reread with
      | error fault => rw [first] at read; cases read
      | ok first' =>
          cases others : Value.rereadMembers rest with
          | error fault => rw [first, others] at read; cases read
          | ok others' =>
              rw [first, others] at read
              cases read
              rw [List.map_cons, List.map_cons, ih others]

section
variable {τ : Type} {key : String} {readTag : Node → Except Fault τ} {members : List (String × Value)}
  (untagged : ∀ member ∈ members, member.1 ≠ key)
include untagged

theorem taggedMembers_nodeMembers {room : Nat} (fits : Value.nestingMembers members ≤ room) (found : Option τ) :
    taggedMembers key readTag room (Value.nodeMembers members) found =
      (Value.rereadMembers members).map fun values => (found, values) := by
  induction members with
  | nil => rfl
  | cons member rest ih =>
      obtain ⟨name, value⟩ := member
      obtain ⟨first, others⟩ := Nat.max_le.mp fits
      have tail := ih (fun other inside => untagged other (List.mem_cons_of_mem _ inside)) others
      have different : name ≠ key := untagged (name, value) List.mem_cons_self
      rw [Value.nodeMembers, taggedMembers, Value.rereadMembers]
      simp only [Scanned.whole, different, if_false, Value.value_node value first, tail, bind, Except.bind]
      cases value.reread with
      | error fault => rfl
      | ok content => cases Value.rereadMembers rest <;> rfl

theorem readTagged_node {title name : String} {tag : τ} (tagged : readTag (.text (.whole (.ok name))) = .ok tag)
    {room : Nat} (fits : (Value.object ((key, .text name) :: members)).nesting ≤ room) :
    readTagged title key readTag room (Value.object ((key, .text name) :: members)).node =
      (Value.rereadMembers members).map fun values => (tag, .object values) := by
  cases room with
  | zero => cases fits
  | succ room =>
      have inner := (Nat.max_le.mp (Nat.le_of_succ_le_succ fits)).2
      have others : taggedMembers key readTag room (Value.nodeMembers members) (some tag) = _ :=
        taggedMembers_nodeMembers untagged inner (some tag)
      rw [Value.node, Value.nodeMembers, readTagged, taggedMembers]
      simp only [Scanned.whole, Value.node] at tagged ⊢
      simp only [tagged, others, bind, Except.bind, if_true, Option.isSome_none, Bool.false_eq_true, if_false]
      cases Value.rereadMembers members <;> rfl

end

namespace Value

theorem isWritten_real (x : Float) : ∀ n ∈ (real x).numbers, n.IsWritten := by
  unfold real
  split
  · rename_i finite
    exact List.forall_mem_singleton.mpr finite
  · exact List.forall_mem_nil _

/-- What a double is read back as: its text is read first, then a number is asked for. -/
def rereadReal (x : Float) : Except Fault Float := do
  (← (real x).reread).readReal

def rereadReal? (x : Float) : Option Float := (rereadReal x).toOption

theorem rereadReal?_of_not_finite {x : Float} (infinite : x.isFinite = false) : rereadReal? x = none := by
  rw [rereadReal?, rereadReal, real, infinite]
  rfl

/-- Whether the reader of numbers gives a double back when it reads what was written of it. -/
def ReadsBack (x : Float) : Prop := (Document.ofText (real x).line).read (fun _ => Node.readReal) = .ok x

theorem readReal_node (x : Float) : Node.readReal (real x).node = rereadReal x := by
  rw [rereadReal, real]
  split
  · rw [node, reread]
    cases (Number.real x).reread <;> rfl
  · rfl

theorem readsBack_iff {x : Float} : ReadsBack x ↔ rereadReal x = .ok x := by
  rw [ReadsBack, Document.ofText_line (isWritten_real x)]
  simp only [Document.read, readReal_node]
  cases rereadReal x <;> exact Iff.rfl

theorem readOptional_of_ok {read : Value → Except Fault α} (refuses : ∃ fault, read .null = .error fault)
    {value : Value} {content : α} (found : read value = .ok content) :
    readOptional read value = .ok (some content) := by
  cases value with
  | null =>
      obtain ⟨fault, refused⟩ := refuses
      rw [refused] at found
      cases found
  | _ => simp only [readOptional, found, Except.map]

/-- What may be absent comes back as it was, as long as nothing written is mistaken for something absent. -/
theorem readOptional_reread {write : α → Value} {read : Value → Except Fault α}
    (refuses : ∃ fault, read .null = .error fault) {content : Option α}
    (kept : ∀ value ∈ content, ((write value).reread >>= read) = .ok value) :
    ((optional write content).reread >>= readOptional read) = .ok content := by
  cases content with
  | none => rfl
  | some value =>
      have back := kept value rfl
      rw [optional]
      cases known : (write value).reread with
      | error fault => rw [known] at back; cases back
      | ok found =>
          rw [known] at back
          exact readOptional_of_ok refuses back

end Value

namespace Node

theorem readOptional_of_ok {read : Node → Except Fault α} (refuses : ∃ fault, read .null = .error fault) {node : Node}
    {content : α} (found : read node = .ok content) : readOptional read node = .ok (some content) := by
  cases node with
  | null =>
      obtain ⟨fault, refused⟩ := refuses
      rw [refused] at found
      cases found
  | _ => simp only [readOptional, found, Except.map]

theorem readOptional_node {write : α → Value} {read : Node → Except Fault α}
    (refuses : ∃ fault, read .null = .error fault) {content : Option α}
    (kept : ∀ value ∈ content, read (write value).node = .ok value) :
    readOptional read (Value.optional write content).node = .ok content := by
  cases content with
  | none => rfl
  | some value => exact readOptional_of_ok refuses (kept value rfl)

theorem readNatural_node (expected : String) {n : Nat} (fits : n < UInt64.size) :
    readNatural expected (Value.natural n).node = .ok n := by
  simp only [Value.natural, Value.node, Number.reread_natural fits, readNatural, Scanned.whole, Int.natCast_nonneg,
    if_true, Int.toNat_natCast]

theorem readList_node {write : α → Value} {read : Nat → Node → Except Fault α} {room : Nat} {values : List α}
    (kept : ∀ value ∈ values, read room (write value).node = .ok value) :
    readList read (room + 1) (Value.list (values.map write)).node = .ok values := by
  have items : readItems (read room) (Value.nodeItems (values.map write)) = .ok values := by
    induction values with
    | nil => rfl
    | cons value rest ih =>
        obtain ⟨here, others⟩ := List.forall_mem_cons.mp kept
        rw [List.map_cons, Value.nodeItems, readItems, here, ih others]
        rfl
  rw [Value.node, readList, items]
  rfl

end Node

namespace Value

/-- A value whose numbers are all written with digits and that nests at most `depth` lists and objects. -/
structure Legible (depth : Nat) (value : Value) : Prop where
  written : ∀ n ∈ value.numbers, n.IsWritten
  shallow : value.nesting ≤ depth

namespace Legible

variable {depth : Nat}

theorem mono {value : Value} (legible : value.Legible depth) {deeper : Nat} (within : depth ≤ deeper) :
    value.Legible deeper :=
  ⟨legible.written, Nat.le_trans legible.shallow within⟩

theorem text (value : String) : (Value.text value).Legible depth := ⟨List.forall_mem_nil _, Nat.zero_le _⟩

theorem natural (n : Nat) : (Value.natural n).Legible depth :=
  ⟨List.forall_mem_singleton.mpr trivial, Nat.zero_le _⟩

theorem real (x : Float) : (Value.real x).Legible depth := by
  refine ⟨isWritten_real x, ?_⟩
  unfold Value.real
  split <;> exact Nat.zero_le _

theorem optional {write : α → Value} {content : Option α} (each : ∀ value ∈ content, (write value).Legible depth) :
    (Value.optional write content).Legible depth := by
  cases content with
  | none => exact ⟨List.forall_mem_nil _, Nat.zero_le _⟩
  | some value => exact each value rfl

theorem list {items : List Value} (each : ∀ item ∈ items, item.Legible depth) :
    (Value.list items).Legible (depth + 1) := by
  suffices inner : (∀ n ∈ numbersItems items, n.IsWritten) ∧ nestingItems items ≤ depth from
    ⟨inner.1, Nat.succ_le_succ inner.2⟩
  induction items with
  | nil => exact ⟨List.forall_mem_nil _, Nat.zero_le _⟩
  | cons item rest ih =>
      obtain ⟨here, others⟩ := List.forall_mem_cons.mp each
      obtain ⟨written, shallow⟩ := ih others
      exact ⟨List.forall_mem_append.mpr ⟨here.written, written⟩, Nat.max_le.mpr ⟨here.shallow, shallow⟩⟩

theorem object {members : List (String × Value)} (each : ∀ member ∈ members, member.2.Legible depth) :
    (Value.object members).Legible (depth + 1) := by
  suffices inner : (∀ n ∈ numbersMembers members, n.IsWritten) ∧ nestingMembers members ≤ depth from
    ⟨inner.1, Nat.succ_le_succ inner.2⟩
  induction members with
  | nil => exact ⟨List.forall_mem_nil _, Nat.zero_le _⟩
  | cons member rest ih =>
      obtain ⟨here, others⟩ := List.forall_mem_cons.mp each
      obtain ⟨written, shallow⟩ := ih others
      exact ⟨List.forall_mem_append.mpr ⟨here.written, written⟩, Nat.max_le.mpr ⟨here.shallow, shallow⟩⟩

end Legible

end Value

end Json

end VisualEffects
