import VisualEffects.Effect.Json
import VisualEffects.Proofs.Amounts
import VisualEffects.Proofs.Colors
import VisualEffects.Proofs.Records

namespace VisualEffects

/-! Effects are read back from their fields.

Reading fills a draft, field by field, with what was written for each.  Of all contents only amounts and
branches can come back changed, so an effect comes back with each of its amounts reread, or not at all when
one of them cannot be.
-/

open Json (Value Fault Fields Draft LawfulChoice)

instance : LawfulChoice Backdrop := ⟨by intro value; cases value <;> rfl⟩
instance : LawfulChoice DpiMode := ⟨by intro value; cases value <;> rfl⟩
instance : LawfulChoice CacheMode := ⟨by intro value; cases value <;> rfl⟩
instance : LawfulChoice BlendMode := ⟨by intro value; cases value <;> rfl⟩
instance : LawfulChoice Placement := ⟨by intro value; cases value <;> rfl⟩
instance : LawfulChoice Effect.Kind := ⟨by intro value; cases value <;> rfl⟩

namespace Effect

abbrev Entry := (field : Field) × Fields.Content field

/-- The fields of an effect that are written. -/
def entries : Effect → List Entry
  | backdrop source => [⟨.source, source⟩]
  | solidColor color => [⟨.color, color⟩]
  | image uri dpi cache => [⟨.uri, uri⟩, ⟨.dpiMode, dpi⟩, ⟨.cacheMode, cache⟩]
  | tile uri dpi cache => [⟨.uri, uri⟩, ⟨.dpiMode, dpi⟩, ⟨.cacheMode, cache⟩]
  | acrylic source color mix amount none =>
      [⟨.source, source⟩, ⟨.tint, color⟩, ⟨.tintMix, mix⟩, ⟨.blurAmount, amount⟩]
  | acrylic source color mix amount (some uri) =>
      [⟨.source, source⟩, ⟨.tint, color⟩, ⟨.tintMix, mix⟩, ⟨.blurAmount, amount⟩, ⟨.textureUri, some uri⟩]
  | opacity value => [⟨.value, value⟩]
  | luminance => []
  | tint color amount => [⟨.color, color⟩, ⟨.opacity, amount⟩]
  | blur value => [⟨.value, value⟩]
  | saturation value => [⟨.value, value⟩]
  | blend branch mode placement => [⟨.input, branch⟩, ⟨.mode, mode⟩, ⟨.placement, placement⟩]

def writeContent : (field : Field) → Fields.Content field → Value
  | .source => (Json.Choice.toValue : Backdrop → Value)
  | .color => Color.toValue
  | .uri => Value.text
  | .dpiMode => (Json.Choice.toValue : DpiMode → Value)
  | .cacheMode => (Json.Choice.toValue : CacheMode → Value)
  | .tint => Color.toValue
  | .tintMix => Value.real
  | .blurAmount => Value.real
  | .textureUri => Value.optional Value.text
  | .value => Value.real
  | .opacity => Value.real
  | .input => fun branch => .list (toValues branch)
  | .mode => (Json.Choice.toValue : BlendMode → Value)
  | .placement => (Json.Choice.toValue : Placement → Value)

def members (entries : List Entry) : List (String × Value) :=
  entries.map fun entry => (Fields.name entry.1, writeContent entry.1 entry.2)

theorem toValue_eq (effect : Effect) :
    effect.toValue = .object ((kindKey, .text effect.kind.name) :: members effect.entries) := by
  cases effect with
  | acrylic source color mix amount texture => cases texture <;> rfl
  | _ => rfl

theorem fields_entries (effect : Effect) : (effect.entries.map Sigma.fst).Sublist effect.kind.fields := by
  cases effect with
  | acrylic source color mix amount texture =>
      cases texture with
      | none => exact List.sublist_append_left [Field.source, .tint, .tintMix, .blurAmount] [.textureUri]
      | some uri => exact List.Sublist.refl _
  | _ => exact List.Sublist.refl _

theorem Kind.nodup_fields (kind : Kind) : kind.fields.Nodup := by
  cases kind <;> decide

theorem Kind.field?_name (kind : Kind) : ∀ field ∈ kind.fields, kind.layout.field? (Fields.name field) = some field := by
  cases kind <;> decide

theorem Kind.field?_kindKey (kind : Kind) : kind.layout.field? kindKey = none := by
  cases kind <;> decide

theorem Field.name_ne_kindKey (field : Field) : Fields.name field ≠ kindKey := by
  cases field <;> decide

theorem members_ne_kindKey (entries : List Entry) : ∀ member ∈ members entries, member.1 ≠ kindKey :=
  Json.writtenMembers_ne Field.name_ne_kindKey writeContent entries

def readContent (field : Field) (value : Value) : Except Fault (Fields.Content field) :=
  if isInput : field = .input then (readBranch value).map fun branch => isInput ▸ branch
  else readField field isInput value

theorem readMembers_eq (kind : Kind) (values : List (String × Value)) (draft : Draft Field) :
    readMembers kind values draft = kind.layout.readMembers readContent values draft := by
  induction values generalizing draft with
  | nil => rfl
  | cons member rest ih =>
      rw [readMembers, Json.Layout.readMembers]
      cases kind.layout.field? member.1 with
      | none => exact ih draft
      | some field =>
          change (draft.putOnce field (readContent field member.2) >>= fun draft => readMembers kind rest draft) = _
          simp only [ih]

/-- What written content is read back as: amounts and branches are reread, everything else is as it was. -/
def rereadContent : (field : Field) → Fields.Content field → Except Fault (Fields.Content field)
  | .source, source => .ok source
  | .color, color => .ok color
  | .uri, uri => .ok uri
  | .dpiMode, dpi => .ok dpi
  | .cacheMode, cache => .ok cache
  | .tint, color => .ok color
  | .tintMix, mix => Value.rereadReal mix
  | .blurAmount, amount => Value.rereadReal amount
  | .textureUri, texture => .ok texture
  | .value, value => Value.rereadReal value
  | .opacity, amount => Value.rereadReal amount
  | .input, branch => do readEffects (← Value.rereadItems (toValues branch))
  | .mode, mode => .ok mode
  | .placement, placement => .ok placement

theorem readContent_text {field : Field} (single : field ≠ .input) (text : String) :
    ((Value.text text).reread >>= readContent field) = readField field single (.text text) := by
  rw [Value.reread]
  exact dif_neg single

theorem readContent_reread : ∀ (field : Field) (content : Fields.Content field),
    ((writeContent field content).reread >>= readContent field) = rereadContent field content
  | .source, (source : Backdrop) => (readContent_text (by decide) _).trans (Json.Choice.readValue_toValue source)
  | .color, color => (readContent_text (by decide) _).trans (Color.readValue_toValue color)
  | .uri, uri => readContent_text (by decide) uri
  | .dpiMode, (dpi : DpiMode) => (readContent_text (by decide) _).trans (Json.Choice.readValue_toValue dpi)
  | .cacheMode, (cache : CacheMode) => (readContent_text (by decide) _).trans (Json.Choice.readValue_toValue cache)
  | .tint, color => (readContent_text (by decide) _).trans (Color.readValue_toValue color)
  | .textureUri, none => rfl
  | .textureUri, some uri => readContent_text (by decide) uri
  | .mode, (mode : BlendMode) => (readContent_text (by decide) _).trans (Json.Choice.readValue_toValue mode)
  | .placement, (placement : Placement) =>
      (readContent_text (by decide) _).trans (Json.Choice.readValue_toValue placement)
  | .tintMix, _ | .blurAmount, _ | .value, _ | .opacity, _ => rfl
  | .input, branch => by
      change ((Value.rereadItems (toValues branch)).map Value.list >>= readContent .input) =
        (Value.rereadItems (toValues branch) >>= readEffects)
      cases Value.rereadItems (toValues branch) with
      | error fault => rfl
      | ok values =>
          change (readEffects values).map _ = readEffects values
          cases readEffects values <;> rfl

def fill (draft : Draft Field) (entry : Entry) : Option (Draft Field) :=
  (rereadContent entry.1 entry.2).toOption.map (draft.put entry.1)

/-- Reading written fields puts them into the draft one by one, each reread. -/
theorem readMembers_members {kind : Kind} (entries : List Entry) (known : ∀ entry ∈ entries, entry.1 ∈ kind.fields)
    (distinct : (entries.map Sigma.fst).Nodup) (draft : Draft Field) (fresh : ∀ entry ∈ entries, draft entry.1 = none) :
    (Value.rereadMembers (members entries) >>= fun members => readMembers kind members draft).toOption =
      entries.foldlM fill draft := by
  have pending : kind.layout.Pending entries draft :=
    ⟨fun entry inside => kind.field?_name entry.1 (known entry inside), distinct, fresh⟩
  have filled := Json.Layout.toOption_readMembers readContent writeContent pending
  simp only [readContent_reread] at filled
  simp only [readMembers_eq]
  exact filled

/-- An effect as it is read from what is written of it. -/
def readBack (effect : Effect) : Except Fault Effect := do
  ofFields effect.kind (.object (← Value.rereadMembers (members effect.entries)))

theorem toOption_readBack_of_fill (effect : Effect) :
    effect.readBack.toOption =
      (effect.entries.foldlM fill Draft.empty).bind fun draft => (ofDraft effect.kind draft).toOption := by
  have fields := effect.fields_entries
  have known : ∀ entry ∈ effect.entries, entry.1 ∈ effect.kind.fields :=
    fun entry inside => fields.subset (List.mem_map.mpr ⟨entry, inside, rfl⟩)
  have distinct := effect.kind.nodup_fields.sublist fields
  rw [← readMembers_members effect.entries known distinct Draft.empty (fun _ _ => rfl), ← toOption_bind, bind_assoc]
  rfl

theorem kindAmong_of_untagged {values : List (String × Value)} (untagged : ∀ member ∈ values, member.1 ≠ kindKey)
    (kind : Kind) : kindAmong values (some kind) = .ok kind := by
  induction values with
  | nil => rfl
  | cons member rest ih =>
      obtain ⟨here, others⟩ := List.forall_mem_cons.mp untagged
      rw [kindAmong, if_neg here, ih others]

/-- In an object whose first member is the kind, the other members are its fields. -/
theorem readValue_tagged {values : List (String × Value)} (untagged : ∀ member ∈ values, member.1 ≠ kindKey)
    (kind : Kind) : readValue (.object ((kindKey, .text kind.name) :: values)) = ofFields kind (.object values) := by
  have tag : readKind (.text kind.name) = .ok kind := LawfulChoice.ofName_label kind
  rw [readValue, kindAmong, if_pos rfl, Option.isSome_none, if_neg Bool.false_ne_true, tag]
  simp only [bind, Except.bind, kindAmong_of_untagged untagged kind, readMembers, kind.field?_kindKey, ofFields]

theorem readValue_toValue (effect : Effect) : (effect.toValue.reread >>= readValue) = effect.readBack := by
  rw [readBack]
  rw [toValue_eq, Value.reread, Value.rereadMembers, Value.reread]
  cases read : Value.rereadMembers (members effect.entries) with
  | error fault => rfl
  | ok values =>
      have untagged : ∀ member ∈ values, member.1 ≠ kindKey := by
        intro member inside
        have named := List.mem_map_of_mem (f := Prod.fst) inside
        rw [Json.map_fst_of_rereadMembers read] at named
        obtain ⟨written, known, same⟩ := List.mem_map.mp named
        rw [← same]
        exact members_ne_kindKey _ written known
      exact readValue_tagged untagged effect.kind

mutual
/-- An effect comes back with its amounts reread. -/
theorem toOption_readBack (effect : Effect) : effect.readBack.toOption = effect.mapAmounts? Value.rereadReal? := by
  rw [toOption_readBack_of_fill]
  exact match effect with
  | acrylic source color mix amount texture => by
      rw [mapAmounts?]
      cases texture <;> simp only [entries, List.foldlM_cons, fill, rereadContent, Value.rereadReal?] <;>
        cases Value.rereadReal mix <;> cases Value.rereadReal amount <;> rfl
  | opacity value | blur value | saturation value => by
      rw [mapAmounts?]
      simp only [entries, List.foldlM_cons, fill, rereadContent, Value.rereadReal?]
      cases Value.rereadReal value <;> rfl
  | tint _ amount => by
      rw [mapAmounts?]
      simp only [entries, List.foldlM_cons, fill, rereadContent, Value.rereadReal?]
      cases Value.rereadReal amount <;> rfl
  | blend branch _ _ => by
      rw [mapAmounts?, ← toOption_readEffects branch]
      simp only [entries, List.foldlM_cons, fill, rereadContent]
      cases (Value.rereadItems (toValues branch) >>= readEffects) <;> rfl
  | backdrop _ | solidColor _ | image _ _ _ | tile _ _ _ | luminance => by
      rw [mapAmounts?]
      rfl

theorem toOption_readEffects (effects : List Effect) :
    (Value.rereadItems (toValues effects) >>= readEffects).toOption =
      mapListAmounts? Value.rereadReal? effects :=
  match effects with
  | [] => by rfl
  | effect :: rest => by
      have parted : (Value.rereadItems (toValues (effect :: rest)) >>= readEffects) =
          (effect.toValue.reread >>= fun value => Value.rereadItems (toValues rest) >>= fun values =>
            readValue value >>= fun first => readEffects values >>= fun others => pure (first :: others)) := by
        simp only [toValues, Value.rereadItems, readEffects, bind_assoc, pure_bind]
      rw [parted, mapListAmounts?, ← toOption_readBack effect, ← toOption_readEffects rest, ← readValue_toValue]
      simp only [toOption_bind, Option.bind_eq_bind, Option.bind_assoc]
      congr 1
      funext value
      rw [Option.bind_comm]
      rfl
end

mutual
/-- Every number of a written effect has digits: what is not finite is not written as a number. -/
theorem isWritten_toValue (effect : Effect) : ∀ n ∈ effect.toValue.numbers, n.IsWritten :=
  match effect with
  | acrylic _ _ mix amount texture => by
      have both := List.forall_mem_append.mpr ⟨Value.isWritten_real mix, Value.isWritten_real amount⟩
      cases texture <;>
        simpa only [toValue, Value.optionalMember, List.cons_append, List.nil_append, Value.numbers,
          Value.numbersMembers, Json.Choice.toValue, Color.toValue, List.append_nil] using both
  | opacity value | blur value | saturation value => by
      simpa only [toValue, Value.numbers, Value.numbersMembers, List.nil_append, List.append_nil]
        using Value.isWritten_real value
  | tint _ amount => by
      simpa only [toValue, Value.numbers, Value.numbersMembers, Color.toValue, List.nil_append, List.append_nil]
        using Value.isWritten_real amount
  | blend branch _ _ => by
      simpa only [toValue, Value.numbers, Value.numbersMembers, Json.Choice.toValue, List.nil_append,
        List.append_nil] using isWritten_toValues branch
  | backdrop _ | solidColor _ | image _ _ _ | tile _ _ _ | luminance => List.forall_mem_nil _

theorem isWritten_toValues (effects : List Effect) : ∀ n ∈ Value.numbersItems (toValues effects), n.IsWritten :=
  match effects with
  | [] => List.forall_mem_nil _
  | effect :: rest => List.forall_mem_append.mpr ⟨isWritten_toValue effect, isWritten_toValues rest⟩
end

theorem readNode_toValue (effect : Effect) {room : Nat} (fits : effect.toValue.nesting ≤ room) :
    readNode room effect.toValue.node = effect.readBack := by
  have tag : Json.Choice.readName (.text (.whole (.ok effect.kind.name))) = .ok effect.kind :=
    LawfulChoice.ofName_label effect.kind
  rw [toValue_eq] at fits ⊢
  rw [readNode, Json.readTagged_node (members_ne_kindKey _) tag fits, readBack]
  cases Value.rereadMembers (members effect.entries) <;> rfl

theorem readItems_toValues (effects : List Effect) {room : Nat} (fits : Value.nestingItems (toValues effects) ≤ room) :
    (Json.Node.readItems (readNode room) (Value.nodeItems (toValues effects))).toOption =
      mapListAmounts? Value.rereadReal? effects := by
  induction effects with
  | nil => rfl
  | cons effect rest ih =>
      obtain ⟨first, others⟩ := Nat.max_le.mp fits
      rw [toValues, Value.nodeItems, Json.Node.readItems, mapListAmounts?, readNode_toValue effect first,
        ← toOption_readBack effect, ← ih others]
      simp only [toOption_bind]
      rfl

end Effect

end VisualEffects
