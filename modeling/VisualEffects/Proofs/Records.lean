import Mathlib.Data.List.Nodup
import VisualEffects.Json.Record
import VisualEffects.Proofs.Rereading

namespace VisualEffects.Json

/-! Records are read back from their members.

Reading the members that were written for the fields of a record fills a draft, field by field, with what each
reader makes of its member.  Fields may be left out, as long as the others stand in the order of the layout.
The same holds of members that are read whole before they are looked at and of members read straight from the
text.
-/

abbrev Entry (φ : Type) [Fields φ] : Type := (field : φ) × Fields.Content field

variable {φ : Type} [Fields φ]

def writtenMembers (write : (field : φ) → Fields.Content field → Value) (entries : List (Entry φ)) :
    List (String × Value) :=
  entries.map fun entry => (Fields.name entry.1, write entry.1 entry.2)

theorem writtenMembers_ne {key : String} (other : ∀ field : φ, Fields.name field ≠ key)
    (write : (field : φ) → Fields.Content field → Value) (entries : List (Entry φ)) :
    ∀ member ∈ writtenMembers write entries, member.1 ≠ key := by
  intro member inside
  obtain ⟨entry, _, rfl⟩ := List.mem_map.mp inside
  exact other entry.1

theorem legible_writtenMembers {depth : Nat} {write : (field : φ) → Fields.Content field → Value}
    (each : ∀ field content, (write field content).Legible depth) (entries : List (Entry φ)) :
    ∀ member ∈ writtenMembers write entries, member.2.Legible depth := by
  intro member inside
  obtain ⟨entry, _, rfl⟩ := List.mem_map.mp inside
  exact each entry.1 entry.2

/-- A field that is written only when something is there. -/
def optionalEntry (field : φ) (present : α → Fields.Content field) (content : Option α) : List (Entry φ) :=
  content.toList.map fun value => ⟨field, present value⟩

theorem sublist_optionalEntry (field : φ) (present : α → Fields.Content field) (content : Option α) :
    ((optionalEntry field present content).map Sigma.fst).Sublist [field] := by
  cases content with
  | none => exact List.nil_sublist _
  | some _ => exact List.Sublist.refl _

variable {entries : List (Entry φ)}

namespace Layout

variable {layout : Layout φ} {draft : Draft φ}

theorem field?_name (names : (layout.fields.map Fields.name).Nodup) {field : φ} (inside : field ∈ layout.fields) :
    layout.field? (Fields.name field) = some field := by
  unfold field?
  generalize layout.fields = fields at names inside
  induction fields with
  | nil => cases inside
  | cons first rest ih =>
      obtain ⟨alone, others⟩ := List.nodup_cons.mp names
      rcases List.mem_cons.mp inside with rfl | later
      · exact List.find?_cons_of_pos (beq_self_eq_true _)
      · have different : Fields.name first ≠ Fields.name field := by
          intro same
          exact alone (same ▸ List.mem_map_of_mem later)
        rw [List.find?_cons_of_neg (by simpa only [beq_iff_eq] using different), ih others later]

/-- Entries of different fields of a layout, none of which has been read before. -/
structure Pending (layout : Layout φ) (entries : List (Entry φ)) (draft : Draft φ) : Prop where
  known : ∀ entry ∈ entries, layout.field? (Fields.name entry.1) = some entry.1
  distinct : (entries.map Sigma.fst).Nodup
  fresh : ∀ entry ∈ entries, draft entry.1 = none

theorem Pending.of_sublist (names : (layout.fields.map Fields.name).Nodup)
    (listed : (entries.map Sigma.fst).Sublist layout.fields) : layout.Pending entries Draft.empty where
  known _ inside := field?_name names (listed.subset (List.mem_map_of_mem inside))
  distinct := (List.Nodup.of_map _ names).sublist listed
  fresh _ _ := rfl

variable [DecidableEq φ]

theorem Pending.tail {entry : Entry φ} (pending : layout.Pending (entry :: entries) draft)
    (content : Fields.Content entry.1) : layout.Pending entries (draft.put entry.1 content) := by
  obtain ⟨known, distinct, fresh⟩ := pending
  obtain ⟨alone, distinct⟩ := List.nodup_cons.mp distinct
  refine ⟨(List.forall_mem_cons.mp known).2, distinct, ?_⟩
  intro other inside
  have different : entry.1 ≠ other.1 := by
    intro same
    exact alone (same ▸ List.mem_map_of_mem inside)
  rw [Draft.put_other draft content different, fresh other (List.mem_cons_of_mem _ inside)]

theorem Pending.putOnce {entry : Entry φ} (pending : layout.Pending (entry :: entries) draft)
    (content : Except Fault (Fields.Content entry.1)) :
    draft.putOnce entry.1 content = content.map (draft.put entry.1) := by
  rw [Draft.putOnce, pending.fresh entry List.mem_cons_self, Option.isSome_none, if_neg Bool.false_ne_true]

end Layout

variable [DecidableEq φ]

namespace Draft

/-- Puts what was made of an entry, if anything was. -/
def fill (result : (entry : Entry φ) → Option (Fields.Content entry.1)) (draft : Draft φ) (entry : Entry φ) :
    Option (Draft φ) :=
  (result entry).map (draft.put entry.1)

def putAll (draft : Draft φ) (entries : List (Entry φ)) : Draft φ :=
  entries.foldl (fun draft entry => draft.put entry.1 entry.2) draft

/-- The draft of a record all of whose entries come back. -/
def ofEntries (entries : List (Entry φ)) : Draft φ := empty.putAll entries

theorem foldlM_fill_of_kept {result : (entry : Entry φ) → Option (Fields.Content entry.1)}
    (kept : ∀ entry ∈ entries, result entry = some entry.2) (draft : Draft φ) :
    entries.foldlM (fill result) draft = some (draft.putAll entries) := by
  induction entries generalizing draft with
  | nil => rfl
  | cons entry rest ih =>
      obtain ⟨here, others⟩ := List.forall_mem_cons.mp kept
      rw [List.foldlM_cons, fill, here]
      exact ih others (draft.put entry.1 entry.2)

end Draft

namespace Layout

variable {layout : Layout φ} {draft : Draft φ}

section
variable {read : (field : φ) → Value → Except Fault (Fields.Content field)}

theorem readMembers_of_pending {entry : Entry φ} (pending : layout.Pending (entry :: entries) draft) (value : Value)
    (rest : List (String × Value)) :
    layout.readMembers read ((Fields.name entry.1, value) :: rest) draft =
      (read entry.1 value >>= fun content => layout.readMembers read rest (draft.put entry.1 content)) := by
  rw [readMembers, pending.known entry List.mem_cons_self]
  dsimp only
  rw [pending.putOnce]
  cases read entry.1 value <;> rfl

variable (read) in
/-- Members that are read whole first fill the draft with what their values are read as. -/
theorem toOption_readMembers (write : (field : φ) → Fields.Content field → Value)
    (pending : layout.Pending entries draft) :
    (Value.rereadMembers (writtenMembers write entries) >>= fun values =>
        layout.readMembers read values draft).toOption =
      entries.foldlM (Draft.fill fun entry => ((write entry.1 entry.2).reread >>= read entry.1).toOption) draft := by
  induction entries generalizing draft with
  | nil => rfl
  | cons entry rest ih =>
      have parted : (Value.rereadMembers (writtenMembers write (entry :: rest)) >>= fun values =>
          layout.readMembers read values draft) =
          ((write entry.1 entry.2).reread >>= fun value => Value.rereadMembers (writtenMembers write rest) >>=
            fun others => read entry.1 value >>= fun content =>
              layout.readMembers read others (draft.put entry.1 content)) := by
        simp only [writtenMembers, List.map_cons, Value.rereadMembers, bind_assoc, pure_bind,
          readMembers_of_pending pending]
      rw [parted, List.foldlM_cons, Draft.fill]
      simp only [toOption_bind, Option.bind_eq_bind, Option.bind_map, Option.bind_assoc, Function.comp_def]
      congr 1
      funext value
      -- all members are read whole before the first field is looked at
      rw [Option.bind_comm]
      congr 1
      funext content
      simpa only [toOption_bind] using ih (pending.tail content)

end

/-- Members that are read straight from the text fill the draft with what their trees are read as. -/
theorem toOption_readNodeMembers (read : (field : φ) → Node → Except Fault (Fields.Content field))
    (write : (field : φ) → Fields.Content field → Value) (pending : layout.Pending entries draft) :
    (layout.readNodeMembers read (Value.nodeMembers (writtenMembers write entries)) draft).toOption =
      entries.foldlM (Draft.fill fun entry => (read entry.1 (write entry.1 entry.2).node).toOption) draft := by
  induction entries generalizing draft with
  | nil => rfl
  | cons entry rest ih =>
      have parted : layout.readNodeMembers read (Value.nodeMembers (writtenMembers write (entry :: rest))) draft =
          (read entry.1 (write entry.1 entry.2).node >>= fun content =>
            layout.readNodeMembers read (Value.nodeMembers (writtenMembers write rest))
              (draft.put entry.1 content)) := by
        simp only [writtenMembers, List.map_cons, Value.nodeMembers, readNodeMembers, Scanned.whole,
          pending.known entry List.mem_cons_self, pending.putOnce, bind, Except.bind]
        cases read entry.1 (write entry.1 entry.2).node <;> rfl
      rw [parted, List.foldlM_cons, Draft.fill, toOption_bind, Option.bind_eq_bind, Option.bind_map]
      congr 1
      funext content
      exact ih (pending.tail content)

section
variable {write : (field : φ) → Fields.Content field → Value} (names : (layout.fields.map Fields.name).Nodup)
  (listed : (entries.map Sigma.fst).Sublist layout.fields)
include names listed

/-- A record that is read whole first is finished from its entries when each of them comes back. -/
theorem readValue_of_kept {read : (field : φ) → Value → Except Fault (Fields.Content field)}
    {finish : Draft φ → Except Fault α}
    (kept : ∀ entry ∈ entries, ((write entry.1 entry.2).reread >>= read entry.1) = .ok entry.2) :
    ((Value.object (writtenMembers write entries)).reread >>= layout.readValue read finish) =
      finish (Draft.ofEntries entries) := by
  have filled := toOption_readMembers read write (Pending.of_sublist names listed)
  rw [Draft.foldlM_fill_of_kept fun entry inside => by rw [kept entry inside]; rfl] at filled
  -- a filled draft leaves no room for a fault, neither in rereading the members nor in reading their fields
  rw [Value.reread]
  cases values : Value.rereadMembers (writtenMembers write entries) with
  | error fault => rw [values] at filled; cases filled
  | ok values' =>
      rw [values] at filled
      change (layout.readMembers read values' Draft.empty).toOption = _ at filled
      change (layout.readMembers read values' Draft.empty >>= finish) = _
      cases members : layout.readMembers read values' Draft.empty with
      | error fault => rw [members] at filled; cases filled
      | ok draft => rw [members] at filled; cases filled; rfl

/-- A record that is read straight from the text is finished from its entries when each of them comes back. -/
theorem readNode_of_kept {read : Nat → (field : φ) → Node → Except Fault (Fields.Content field)}
    {finish : Draft φ → Except Fault α} {room : Nat}
    (kept : ∀ entry ∈ entries, read room entry.1 (write entry.1 entry.2).node = .ok entry.2) :
    layout.readNode read finish (room + 1) (Value.object (writtenMembers write entries)).node =
      finish (Draft.ofEntries entries) := by
  have filled := toOption_readNodeMembers (read room) write (Pending.of_sublist names listed)
  rw [Draft.foldlM_fill_of_kept fun entry inside => by rw [kept entry inside]; rfl] at filled
  rw [Value.node, readNode]
  cases members : layout.readNodeMembers (read room) (Value.nodeMembers (writtenMembers write entries)) Draft.empty with
  | error fault => rw [members] at filled; cases filled
  | ok draft => rw [members] at filled; cases filled; rfl

end

end Layout

end VisualEffects.Json
