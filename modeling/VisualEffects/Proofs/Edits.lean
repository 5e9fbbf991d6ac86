import Mathlib.Logic.Relation
import VisualEffects.Proofs.Orders
import VisualEffects.Proofs.Reading

namespace VisualEffects

/-! Texts that differ in nothing that matters are read alike.

The members of an effect or of a color may stand in any order, members that are no fields of an effect may be added,
an optional field may be left out or given its default, and a placement goes by two names.  Blanks do not matter either:
what is read depends on the value that a text spells.
-/

open Json (Value Fault Fields Draft Layout)

namespace Json

theorem Choice.toOption_ofName {α : Type} [Choice α] (name : String) :
    (ofName name : Except Fault α).toOption = named? name := by
  unfold ofName
  cases (named? name : Option α) <;> rfl

namespace Value

theorem nestingMembers_perm {members others : List (String × Value)} (perm : members.Perm others) :
    nestingMembers members = nestingMembers others := by
  induction perm with
  | nil => rfl
  | cons member _ ih => simp only [nestingMembers, ih]
  | swap first second rest =>
      simp only [nestingMembers]
      omega
  | trans _ _ first second => exact first.trans second

theorem nestingItems_item (before after : List Value) {value other : Value} (deeper : other.nesting ≤ value.nesting) :
    nestingItems (before ++ other :: after) ≤ nestingItems (before ++ value :: after) := by
  induction before with
  | nil =>
      simp only [List.nil_append, nestingItems]
      omega
  | cons first rest ih =>
      simp only [List.cons_append, nestingItems]
      omega

end Value

end Json

namespace Effect

/-- What an optional field holds when it is left out. -/
def Field.default? : (field : Field) → Option (Fields.Content field)
  | .dpiMode => some (default : DpiMode)
  | .cacheMode => some (default : CacheMode)
  | .blurAmount => some (0 : Float)
  | .textureUri => some (none : Option String)
  | .mode => some (default : BlendMode)
  | .placement => some (default : Placement)
  | _ => none

/-- Whether a value is a way of writing the default of a field, without lists or objects in it. -/
def Field.WritesDefault (field : Field) (value : Value) : Prop :=
  value.nesting = 0 ∧ ∃ content, field.default? = some content ∧ readContent field value = .ok content

/-- Whether two values name the same placement, each as a text or as the only key of an object. -/
inductive SamePlacement : Value → Value → Prop
  | text {name other : String} (same : (Json.Choice.named? name : Option Placement) = Json.Choice.named? other) :
      SamePlacement (.text name) (.text other)
  | key {name other : String} {content : Value}
      (same : (Json.Choice.named? name : Option Placement) = Json.Choice.named? other) :
      SamePlacement (.object [(name, content)]) (.object [(other, content)])

/-- Edits of an effect, or of an effect in one of its branches, that make no difference. -/
inductive Edit : Value → Value → Prop
  | reorder {members others : List (String × Value)} (perm : members.Perm others) : Edit (.object members) (.object others)
  | remark {members : List (String × Value)} {kind : Kind} {name : String} (tagged : kindAmong members none = .ok kind)
      (noKind : name ≠ kindKey) (unknown : ∀ field ∈ kind.fields, Fields.name field ≠ name) (text : String) :
      Edit (.object members) (.object ((name, .text text) :: members))
  | addDefault {members : List (String × Value)} {kind : Kind} {field : Field} {value : Value}
      (tagged : kindAmong members none = .ok kind) (known : field ∈ kind.fields)
      (absent : ∀ member ∈ members, member.1 ≠ Fields.name field) (writes : field.WritesDefault value) :
      Edit (.object members) (.object ((Fields.name field, value) :: members))
  | dropDefault {members : List (String × Value)} {kind : Kind} {field : Field} {value : Value}
      (tagged : kindAmong members none = .ok kind) (known : field ∈ kind.fields)
      (absent : ∀ member ∈ members, member.1 ≠ Fields.name field) {content : Fields.Content field}
      (optional : field.default? = some content) (reads : readContent field value = .ok content) :
      Edit (.object ((Fields.name field, value) :: members)) (.object members)
  | placement {members : List (String × Value)} {value other : Value} (same : SamePlacement value other) :
      Edit (.object (("placement", value) :: members)) (.object (("placement", other) :: members))
  | channels {members channels others : List (String × Value)} {field : Field} (colored : field = .color ∨ field = .tint)
      (perm : channels.Perm others) :
      Edit (.object ((Fields.name field, .object channels) :: members))
        (.object ((Fields.name field, .object others) :: members))
  | branch {members : List (String × Value)} {before after : List Value} {value other : Value} (edit : Edit value other) :
      Edit (.object (("input", .list (before ++ value :: after)) :: members))
        (.object (("input", .list (before ++ other :: after)) :: members))

/-- An edit of one effect of a list. -/
inductive EditItem : List Value → List Value → Prop
  | item {before after : List Value} {value other : Value} (edit : Edit value other) :
      EditItem (before ++ value :: after) (before ++ other :: after)

variable {kind : Kind} {field : Field} {name : String} {members : List (String × Value)}

theorem Kind.field?_eq_some : kind.layout.field? name = some field ↔ field ∈ kind.fields ∧ Fields.name field = name := by
  constructor
  · intro found
    exact ⟨List.mem_of_find?_eq_some found, by simpa using List.find?_some found⟩
  · rintro ⟨inside, rfl⟩
    exact kind.field?_name field inside

theorem Kind.field?_eq_none : kind.layout.field? name = none ↔ ∀ field ∈ kind.fields, Fields.name field ≠ name := by
  rw [Layout.field?, List.find?_eq_none]
  simp only [beq_iff_eq]
  rfl

theorem Field.name_injective {field other : Field} (same : Fields.name field = Fields.name other) : field = other := by
  have named (field : Field) : [Field.source, .color, .uri, .dpiMode, .cacheMode, .tint, .tintMix, .blurAmount,
      .textureUri, .value, .opacity, .input, .mode, .placement].find? (Fields.name · == Fields.name field) =
        some field := by
    cases field <;> decide
  exact Option.some.inj ((named field).symm.trans (same ▸ named other))

theorem kindAmong_field (field : Field) (value : Value) (found : Option Kind) :
    kindAmong ((Fields.name field, value) :: members) found = kindAmong members found :=
  kindAmong_other field.name_ne_kindKey found

theorem toOption_readValue_content {value other : Value}
    (same : (readContent field value).toOption = (readContent field other).toOption) :
    (readValue (.object ((Fields.name field, value) :: members))).toOption =
      (readValue (.object ((Fields.name field, other) :: members))).toOption := by
  simp only [toOption_readValue_object, kindAmong_field, readMembers_eq, Layout.toOption_readMembers_eq,
    List.foldlM_cons, Layout.take?]
  refine congrArg _ (funext fun kind => ?_)
  cases known : kind.layout.field? (Fields.name field) with
  | none => rfl
  | some found =>
      cases Field.name_injective (Kind.field?_eq_some.mp known).2
      simp only [same]

theorem toOption_readValue_unknown (tagged : kindAmong members none = .ok kind) (noKind : name ≠ kindKey)
    (unknown : ∀ field ∈ kind.fields, Fields.name field ≠ name) (value : Value) :
    (readValue (.object ((name, value) :: members))).toOption = (readValue (.object members)).toOption := by
  have ignored : kind.layout.field? name = none := Kind.field?_eq_none.mpr unknown
  rw [toOption_readValue_object, toOption_readValue_object, kindAmong_other noKind, tagged]
  simp only [toOption_ok, Option.bind_some, readMembers, ignored]

/-- An effect is made of what its fields hold, an optional one that is missing holding its default. -/
theorem ofDraft_congr {draft other : Draft Field} (needed : ∀ field : Field, field.default? = none → draft field = other field)
    (optional : ∀ (field : Field) content, field.default? = some content →
      (draft field).getD content = (other field).getD content) (kind : Kind) : ofDraft kind draft = ofDraft kind other := by
  cases kind with
  | backdrop => simp only [ofDraft, Draft.need, needed .source rfl]
  | solidColor => simp only [ofDraft, Draft.need, needed .color rfl]
  | image | tile =>
      simp only [ofDraft, Draft.need, needed .uri rfl, optional .dpiMode _ rfl, optional .cacheMode _ rfl]
  | acrylic =>
      simp only [ofDraft, Draft.need, needed .source rfl, needed .tint rfl, needed .tintMix rfl,
        optional .blurAmount _ rfl, optional .textureUri _ rfl]
  | opacity | blur | saturation => simp only [ofDraft, Draft.need, needed .value rfl]
  | luminance => rfl
  | tint => simp only [ofDraft, Draft.need, needed .color rfl, needed .opacity rfl]
  | blend => simp only [ofDraft, Draft.need, needed .input rfl, optional .mode _ rfl, optional .placement _ rfl]

theorem ofDraft_put_default {draft : Draft Field} (free : draft field = none) {content : Fields.Content field}
    (optional : field.default? = some content) (kind : Kind) :
    ofDraft kind (draft.put field content) = ofDraft kind draft := by
  refine ofDraft_congr (fun other needed => ?_) (fun other content' optional' => ?_) kind
  · refine Draft.put_other draft content ?_
    rintro rfl
    cases optional.symm.trans needed
  · by_cases same : field = other
    · subst same
      cases optional.symm.trans optional'
      rw [Draft.put_self, free]
      rfl
    · rw [Draft.put_other draft content same]

section
variable {draft : Draft Field} {content : Fields.Content field} {member : String × Value}

theorem take?_put (absent : member.1 ≠ Fields.name field) :
    kind.layout.take? readContent (draft.put field content) member =
      (kind.layout.take? readContent draft member).map fun draft => draft.put field content := by
  unfold Layout.take?
  cases found : kind.layout.field? member.1 with
  | none => rfl
  | some other =>
      have different : field ≠ other := by
        rintro rfl
        exact absent (Kind.field?_eq_some.mp found).2.symm
      simp only [Draft.put_other draft content different]
      cases (draft other).isSome with
      | true => rfl
      | false => cases (readContent other member.2).toOption <;> simp [Draft.put_comm draft different]

theorem foldlM_take?_put (absent : ∀ member ∈ members, member.1 ≠ Fields.name field) :
    members.foldlM (kind.layout.take? readContent) (draft.put field content) =
      (members.foldlM (kind.layout.take? readContent) draft).map fun draft => draft.put field content := by
  induction members generalizing draft with
  | nil => rfl
  | cons member rest ih =>
      obtain ⟨here, others⟩ := List.forall_mem_cons.mp absent
      rw [List.foldlM_cons, List.foldlM_cons, take?_put here]
      cases kind.layout.take? readContent draft member with
      | none => rfl
      | some next => exact ih others

theorem free_of_take? (absent : member.1 ≠ Fields.name field) {next : Draft Field}
    (taken : kind.layout.take? readContent draft member = some next) : next field = draft field := by
  unfold Layout.take? at taken
  split at taken
  · cases taken
    rfl
  · next other found =>
      split at taken
      · cases taken
      · obtain ⟨content, _, rfl⟩ := Option.map_eq_some_iff.mp taken
        refine Draft.put_other draft content ?_
        rintro rfl
        exact absent (Kind.field?_eq_some.mp found).2.symm

theorem free_of_foldlM_take? (absent : ∀ member ∈ members, member.1 ≠ Fields.name field) {last : Draft Field}
    (taken : members.foldlM (kind.layout.take? readContent) draft = some last) : last field = draft field := by
  induction members generalizing draft with
  | nil =>
      cases taken
      rfl
  | cons member rest ih =>
      obtain ⟨here, others⟩ := List.forall_mem_cons.mp absent
      obtain ⟨next, first, taken⟩ := Option.bind_eq_some_iff.mp taken
      rw [ih others taken, free_of_take? here first]

end

theorem toOption_readValue_default (tagged : kindAmong members none = .ok kind) (known : field ∈ kind.fields)
    (absent : ∀ member ∈ members, member.1 ≠ Fields.name field) {content : Fields.Content field}
    (optional : field.default? = some content) {value : Value} (reads : readContent field value = .ok content) :
    (readValue (.object ((Fields.name field, value) :: members))).toOption = (readValue (.object members)).toOption := by
  -- The default is put first and its field does not come again, so it stays in the draft and nothing else depends on it.
  have first : kind.layout.take? readContent Draft.empty (Fields.name field, value) =
      some (Draft.empty.put field content) := by
    simp only [Layout.take?, kind.field?_name field known, reads]
    rfl
  simp only [toOption_readValue_object, kindAmong_field, tagged, readMembers_eq, Layout.toOption_readMembers_eq,
    List.foldlM_cons, first, toOption_ok, Option.bind_some, Option.bind_eq_bind, foldlM_take?_put absent]
  cases taken : members.foldlM (kind.layout.take? readContent) Draft.empty with
  | none => rfl
  | some last =>
      have free : last field = none := free_of_foldlM_take? absent taken
      simp only [Option.map_some, Option.bind_some, ofDraft_put_default free optional]

theorem toOption_readEffects_item {before after : List Value} {value other : Value}
    (same : (readValue value).toOption = (readValue other).toOption) :
    (readEffects (before ++ value :: after)).toOption = (readEffects (before ++ other :: after)).toOption := by
  induction before with
  | nil => simp only [List.nil_append, readEffects, toOption_bind, same]
  | cons first rest ih => simp only [List.cons_append, readEffects, toOption_bind, ih]

theorem SamePlacement.toOption_readValue {value other : Value} (same : SamePlacement value other) :
    (Json.Choice.readValue value : Except Fault Placement).toOption =
      (Json.Choice.readValue other : Except Fault Placement).toOption := by
  cases same with
  | text same => simp only [Json.Choice.readValue, Json.Choice.toOption_ofName, same]
  | key same => simp only [Json.Choice.readValue, toOption_bind, Json.Choice.toOption_ofName, same]

theorem SamePlacement.toOption_readContent {value other : Value} (same : SamePlacement value other) :
    (readContent .placement value).toOption = (readContent .placement other).toOption := same.toOption_readValue

theorem readContent_channels (colored : field = .color ∨ field = .tint) {channels others : List (String × Value)}
    (perm : channels.Perm others) :
    readContent field (.object channels) = readContent field (.object others) := by
  rcases colored with rfl | rfl <;> exact Color.readValue_object_perm perm

theorem toOption_readContent_branch {items others : List Value}
    (same : (readEffects items).toOption = (readEffects others).toOption) :
    (readContent .input (.list items)).toOption = (readContent .input (.list others)).toOption := by
  simp only [readContent, readBranch, toOption_map, same, dif_pos]

/-- An edit leaves what an effect is read as. -/
theorem Edit.toOption_readValue {value other : Value} (edit : Edit value other) :
    (readValue value).toOption = (readValue other).toOption := by
  induction edit with
  | reorder perm => exact toOption_readValue_perm perm
  | remark tagged noKind unknown text => exact (toOption_readValue_unknown tagged noKind unknown _).symm
  | addDefault tagged known absent writes =>
      obtain ⟨_, content, optional, reads⟩ := writes
      exact (toOption_readValue_default tagged known absent optional reads).symm
  | dropDefault tagged known absent optional reads => exact toOption_readValue_default tagged known absent optional reads
  | placement same => exact toOption_readValue_content same.toOption_readContent
  | channels colored perm => exact toOption_readValue_content (congrArg _ (readContent_channels colored perm))
  | branch edit ih => exact toOption_readValue_content (toOption_readContent_branch (toOption_readEffects_item ih))

theorem Edit.namesKind {value other : Value} (edit : Edit value other) (named : namesKind value = true) :
    namesKind other = true := by
  have field {name : String} {value other : Value} {members : List (String × Value)} (foreign : name ≠ kindKey)
      (named : Effect.namesKind (.object ((name, value) :: members)) = true) :
      Effect.namesKind (.object ((name, other) :: members)) = true :=
    namesKind_cons.mpr ⟨fun same => absurd same foreign, (namesKind_cons.mp named).2⟩
  cases edit with
  | reorder perm =>
      rw [Effect.namesKind, List.all_eq_true] at named ⊢
      exact fun member inside => named member (perm.mem_iff.mpr inside)
  | remark tagged noKind unknown text => exact namesKind_cons.mpr ⟨fun same => absurd same noKind, named⟩
  | @addDefault _ _ known =>
      exact namesKind_cons.mpr ⟨fun same => absurd same (Field.name_ne_kindKey _), named⟩
  | dropDefault => exact (namesKind_cons.mp named).2
  | placement same => exact field (by decide) named
  | channels colored perm => exact field (Field.name_ne_kindKey _) named
  | branch edit => exact field (by decide) named

theorem Edit.nesting {value other : Value} (edit : Edit value other) : other.nesting ≤ value.nesting := by
  induction edit with
  | reorder perm => exact Nat.succ_le_succ (Json.Value.nestingMembers_perm perm).ge
  | remark tagged noKind unknown text =>
      simp only [Value.nesting, Value.nestingMembers]
      omega
  | addDefault tagged known absent writes =>
      simp only [Value.nesting, Value.nestingMembers, writes.1]
      omega
  | dropDefault tagged known absent optional reads =>
      simp only [Value.nesting, Value.nestingMembers]
      omega
  | placement same => cases same <;> exact Nat.le_refl _
  | channels colored perm =>
      simp only [Value.nesting, Value.nestingMembers, Json.Value.nestingMembers_perm perm]
      exact Nat.le_refl _
  | @branch _ before after _ _ edit ih =>
      have inner := Json.Value.nestingItems_item before after ih
      simp only [Value.nesting, Value.nestingMembers]
      omega

/-- Whether a list is read as the same effects as another, wherever that is read as a pipeline. -/
structure Follows (values others : List Value) : Prop where
  same : (readEffects values).toOption = (readEffects others).toOption
  named : (∀ value ∈ values, Effect.namesKind value = true) → ∀ value ∈ others, Effect.namesKind value = true
  shallow : (Value.list others).nesting ≤ (Value.list values).nesting

theorem EditItem.follows {values others : List Value} (edit : EditItem values others) : Follows values others := by
  cases edit with
  | @item before after value other edit =>
      refine ⟨toOption_readEffects_item edit.toOption_readValue, fun named => ?_,
        Nat.succ_le_succ (Json.Value.nestingItems_item before after edit.nesting)⟩
      obtain ⟨first, here⟩ := List.forall_mem_append.mp named
      obtain ⟨here, last⟩ := List.forall_mem_cons.mp here
      exact List.forall_mem_append.mpr ⟨first, List.forall_mem_cons.mpr ⟨edit.namesKind here, last⟩⟩

/-- Any number of edits, one after the other. -/
abbrev Edits : List Value → List Value → Prop := Relation.ReflTransGen EditItem

theorem Edits.follows {values others : List Value} (edits : Edits values others) : Follows values others := by
  induction edits with
  | refl => exact ⟨rfl, id, Nat.le_refl _⟩
  | tail _ edit ih =>
      have last := edit.follows
      exact ⟨ih.same.trans last.same, last.named ∘ ih.named, Nat.le_trans last.shallow ih.shallow⟩

end Effect

namespace Pipeline

open Json (Denotes Document)
open Effect (Edit EditItem Edits)

end Pipeline

end VisualEffects
