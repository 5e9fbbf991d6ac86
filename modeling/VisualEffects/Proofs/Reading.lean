import VisualEffects.Pipeline.Basic
import VisualEffects.Proofs.Building
import VisualEffects.Proofs.Entries

namespace VisualEffects

/-! Which texts are read as a pipeline, by the value that they spell.

All of a text that is accepted has been read whole, though not all of it at once: the kind of an effect is looked at where
it stands.  So a pipeline is read from the value of its text, which must not be nested too deep, and the effects of its
own list must give their kinds by name.
-/

open Json (Value Fault Draft)

namespace Json

namespace Node

mutual
/-- How many lists and objects stand around the innermost place of a tree. -/
def nesting : Node → Nat
  | list items _ => nestingItems items + 1
  | object members _ => nestingMembers members + 1
  | gap _ | null | bool _ | number _ | text _ => 0

def nestingItems : List Node → Nat
  | [] => 0
  | item :: rest => max (nesting item) (nestingItems rest)

def nestingMembers : List Member → Nat
  | [] => 0
  | (_, node) :: rest => max (nesting node) (nestingMembers rest)
end

mutual
/-- A tree that is read whole is nested as deep as its value, and is read in any room for that. -/
theorem nesting_of_value (tree : Node) {room : Nat} {value : Value} (read : tree.value room = .ok value) :
    value.nesting = tree.nesting ∧ tree.nesting ≤ room ∧ ∀ {other}, tree.nesting ≤ other → tree.value other = .ok value :=
  match tree, read with
  | .null, rfl => ⟨rfl, Nat.zero_le _, fun _ => rfl⟩
  | .bool _, rfl => ⟨rfl, Nat.zero_le _, fun _ => rfl⟩
  | .number _, read => by
      obtain ⟨_, _, rfl⟩ := map_eq_ok.mp read
      exact ⟨rfl, Nat.zero_le _, fun _ => read⟩
  | .text _, read => by
      obtain ⟨_, _, rfl⟩ := map_eq_ok.mp read
      exact ⟨rfl, Nat.zero_le _, fun _ => read⟩
  | .list items _, read => by
      obtain ⟨rfl, below, values, rfl, inner, rfl⟩ := value_list_eq_ok.mp read
      obtain ⟨same, fits, again⟩ := nesting_of_valueItems items inner
      refine ⟨congrArg (· + 1) same, Nat.succ_le_succ fits, fun {other} enough => ?_⟩
      obtain ⟨other, rfl⟩ := Nat.exists_eq_add_of_le' (Nat.le_of_add_left_le enough)
      exact value_list_eq_ok.mpr ⟨rfl, other, values, rfl, again (Nat.le_of_succ_le_succ enough), rfl⟩
  | .object members _, read => by
      obtain ⟨rfl, below, values, rfl, inner, rfl⟩ := value_object_eq_ok.mp read
      obtain ⟨same, fits, again⟩ := nesting_of_valueMembers members inner
      refine ⟨congrArg (· + 1) same, Nat.succ_le_succ fits, fun {other} enough => ?_⟩
      obtain ⟨other, rfl⟩ := Nat.exists_eq_add_of_le' (Nat.le_of_add_left_le enough)
      exact value_object_eq_ok.mpr ⟨rfl, other, values, rfl, again (Nat.le_of_succ_le_succ enough), rfl⟩

theorem nesting_of_valueItems (items : List Node) {room : Nat} {values : List Value}
    (read : valueItems room items = .ok values) :
    Value.nestingItems values = nestingItems items ∧ nestingItems items ≤ room ∧
      ∀ {other}, nestingItems items ≤ other → valueItems other items = .ok values :=
  match items, read with
  | [], rfl => ⟨rfl, Nat.zero_le _, fun _ => rfl⟩
  | item :: rest, read => by
      obtain ⟨first, others, here, there, rfl⟩ := valueItems_cons_eq_ok.mp read
      obtain ⟨same, fits, again⟩ := nesting_of_value item here
      obtain ⟨sameRest, fitsRest, againRest⟩ := nesting_of_valueItems rest there
      refine ⟨congrArg₂ max same sameRest, Nat.max_le.mpr ⟨fits, fitsRest⟩, fun enough => ?_⟩
      obtain ⟨enough, enoughRest⟩ := Nat.max_le.mp enough
      exact valueItems_cons_eq_ok.mpr ⟨first, others, again enough, againRest enoughRest, rfl⟩

theorem nesting_of_valueMembers (members : List Member) {room : Nat} {values : List (String × Value)}
    (read : valueMembers room members = .ok values) :
    Value.nestingMembers values = nestingMembers members ∧ nestingMembers members ≤ room ∧
      ∀ {other}, nestingMembers members ≤ other → valueMembers other members = .ok values :=
  match members, read with
  | [], rfl => ⟨rfl, Nat.zero_le _, fun _ => rfl⟩
  | (key, node) :: rest, read => by
      obtain ⟨name, first, others, named, here, there, rfl⟩ := valueMembers_cons_eq_ok.mp read
      obtain ⟨same, fits, again⟩ := nesting_of_value node here
      obtain ⟨sameRest, fitsRest, againRest⟩ := nesting_of_valueMembers rest there
      refine ⟨congrArg₂ max same sameRest, Nat.max_le.mpr ⟨fits, fitsRest⟩, fun enough => ?_⟩
      obtain ⟨enough, enoughRest⟩ := Nat.max_le.mp enough
      exact valueMembers_cons_eq_ok.mpr ⟨name, first, others, named, again enough, againRest enoughRest, rfl⟩
end

end Node

/-- Whether a text spells a value. -/
def Denotes (text : String) (value : Value) : Prop :=
  ∃ tree : Node, tree.SpelledBy text ∧ ∃ room, tree.value room = .ok value

theorem Denotes.unique {text : String} {value other : Value} (first : Denotes text value) (second : Denotes text other) :
    value = other := by
  obtain ⟨tree, spelled, _, read⟩ := first
  obtain ⟨same, spelled', _, read'⟩ := second
  obtain ⟨rfl, _⟩ := Document.mk.inj (spelled.ofText.symm.trans spelled'.ofText)
  obtain ⟨_, _, again⟩ := Node.nesting_of_value tree read
  obtain ⟨_, _, again'⟩ := Node.nesting_of_value tree read'
  exact Except.ok.inj ((again (Nat.le_refl _)).symm.trans (again' (Nat.le_refl _)))

theorem Document.read_eq_ok {α : Type} {reader : Nat → Node → Except Fault α} {document : Document} {result : α} :
    document.read reader = .ok result ↔ reader depthLimit document.root = .ok result ∧ document.trailing = false := by
  rw [Document.read, bind_eq_ok]
  cases document.trailing <;> simp [pure, Except.pure]

/-- A text is read whole exactly if it spells a value that is not nested too deep. -/
theorem Document.read_value_eq_ok {text : String} {value : Value} :
    (ofText text).read Node.value = .ok value ↔ Denotes text value ∧ value.nesting ≤ depthLimit := by
  rw [read_eq_ok]
  constructor
  · rintro ⟨read, complete⟩
    obtain ⟨same, fits, _⟩ := Node.nesting_of_value _ read
    have built : ofText text = ⟨(ofText text).root, false⟩ := by rw [← complete]
    exact ⟨⟨_, Document.spelledBy_of_ofText built read, depthLimit, read⟩, same ▸ fits⟩
  · rintro ⟨⟨tree, spelled, room, read⟩, fits⟩
    obtain ⟨same, _, again⟩ := Node.nesting_of_value tree read
    rw [spelled.ofText]
    exact ⟨again (same ▸ fits), rfl⟩

end Json

namespace Effect

open Json (Node)

variable {room : Nat} {kind : Kind}

def isText : Value → Bool
  | .text _ => true
  | _ => false

/-- Whether the kind of an effect is given by its name, if it is given at all. -/
def namesKind : Value → Bool
  | .object members => members.all fun member => member.1 != kindKey || isText member.2
  | .list (first :: _) => isText first
  | _ => true

/-- The members of an effect that are not its kind. -/
def untagged (members : List (String × Value)) : List (String × Value) :=
  members.filter fun member => member.1 != kindKey

theorem readMembers_untagged (members : List (String × Value)) (draft : Draft Field) :
    readMembers kind (untagged members) draft = readMembers kind members draft := by
  simp only [readMembers_eq]
  induction members generalizing draft with
  | nil => rfl
  | cons member rest ih =>
      obtain ⟨name, value⟩ := member
      by_cases tag : name = kindKey
      · rw [untagged, List.filter_cons_of_neg (by simpa using tag), Json.Layout.readMembers, tag, kind.field?_kindKey]
        exact ih draft
      · rw [untagged, List.filter_cons_of_pos (by simpa using tag), Json.Layout.readMembers, Json.Layout.readMembers]
        cases kind.layout.field? name with
        | none => exact ih draft
        | some field => exact bind_congr fun draft => ih draft

theorem readName_eq_ok (room : Nat) {node : Node} :
    (Json.Choice.readName node : Except Fault Kind) = .ok kind ↔
      ∃ name, node.value room = .ok (.text name) ∧ readKind (.text name) = .ok kind := by
  cases node with
  | text scanned => simp [Json.Choice.readName, Node.value, bind_eq_ok, map_eq_ok, readKind]
  | number scanned => simp [Json.Choice.readName, Node.value, map_eq_ok]
  | list items ending => simp [Json.Choice.readName, Json.Node.value_list_eq_ok]
  | object members ending => simp [Json.Choice.readName, Json.Node.value_object_eq_ok]
  | _ => simp [Json.Choice.readName, Node.value]

section
variable {name : String} {value : Value} {rest : List (String × Value)}

theorem kindAmong_tag (value : Value) (rest : List (String × Value)) :
    kindAmong ((kindKey, value) :: rest) none = (readKind value >>= fun kind => kindAmong rest (some kind)) := by
  rw [kindAmong, if_pos rfl, Option.isSome_none, if_neg Bool.false_ne_true]

theorem kindAmong_other (other : name ≠ kindKey) (found : Option Kind) :
    kindAmong ((name, value) :: rest) found = kindAmong rest found := by
  rw [kindAmong, if_neg other]

theorem namesKind_cons :
    namesKind (.object ((name, value) :: rest)) = true ↔
      (name = kindKey → isText value = true) ∧ namesKind (.object rest) = true := by
  simp only [namesKind, List.all_cons, Bool.and_eq_true, Bool.or_eq_true, bne_iff_ne, ne_eq, Decidable.imp_iff_not_or]

theorem untagged_tag : untagged ((kindKey, value) :: rest) = untagged rest :=
  List.filter_cons_of_neg (by simp)

theorem untagged_other (other : name ≠ kindKey) : untagged ((name, value) :: rest) = (name, value) :: untagged rest :=
  List.filter_cons_of_pos (by simpa using other)

end

section
variable {key : Json.Scanned String} {node : Node} {rest : List Json.Member} {found : Option Kind}

/-- The tag of an object that is read straight from a text, and its other members. -/
abbrev tagged (room : Nat) (members : List Json.Member) (found : Option Kind) :
    Except Fault (Option Kind × List (String × Value)) :=
  Json.taggedMembers kindKey Json.Choice.readName room members found

theorem tagged_tag (named : key.value = .ok kindKey) :
    tagged room ((key, node) :: rest) none =
      ((Json.Choice.readName node : Except Fault Kind) >>= fun kind => tagged room rest (some kind)) := by
  simp [tagged, Json.taggedMembers, named, bind, Except.bind]

theorem tagged_other {name : String} (named : key.value = .ok name) (other : name ≠ kindKey) :
    tagged room ((key, node) :: rest) found =
      (node.value room >>= fun value => (tagged room rest found).map fun (found, others) =>
        (found, (name, value) :: others)) := by
  simp only [tagged, Json.taggedMembers, named, other, bind, Except.bind, Except.map, if_false]
  rfl

end

/-- Whether the values of an object's members are those of its tag and of its other members. -/
theorem tagged_eq_ok {members : List Json.Member} {found : Option Kind} {others : List (String × Value)} :
    tagged room members found = .ok (some kind, others) ↔
      ∃ values, Node.valueMembers room members = .ok values ∧ kindAmong values found = .ok kind ∧
        namesKind (.object values) = true ∧ others = untagged values := by
  induction members generalizing found others with
  | nil => cases found <;> simp [tagged, Json.taggedMembers, Node.valueMembers, kindAmong, namesKind, untagged]
  | cons member rest ih =>
      obtain ⟨key, node⟩ := member
      cases named : key.value with
      | error fault => simp [tagged, Json.taggedMembers, Json.Node.valueMembers_cons_eq_ok, named, bind, Except.bind]
      | ok name =>
          have parted {values : List (String × Value)} :
              Node.valueMembers room ((key, node) :: rest) = .ok values ↔
                ∃ first others, node.value room = .ok first ∧ Node.valueMembers room rest = .ok others ∧
                  values = (name, first) :: others := by
            simp [Json.Node.valueMembers_cons_eq_ok, named]
          -- The tag is read where it stands and kept out of the other members; a second one fails.
          by_cases tag : name = kindKey
          · subst tag
            cases found with
            | some earlier => simp [tagged, Json.taggedMembers, named, parted, kindAmong, bind, Except.bind]
            | none =>
                simp only [tagged_tag named, bind_eq_ok, ih, parted, readName_eq_ok room]
                constructor
                · rintro ⟨earlier, ⟨text, whole, read⟩, values, inner, among, names, rfl⟩
                  refine ⟨_, ⟨_, _, whole, inner, rfl⟩, ?_, namesKind_cons.mpr ⟨fun _ => rfl, names⟩, untagged_tag.symm⟩
                  rw [kindAmong_tag, read]
                  exact among
                · rintro ⟨_, ⟨first, values, whole, inner, rfl⟩, among, names, rfl⟩
                  obtain ⟨text, names⟩ := namesKind_cons.mp names
                  rw [kindAmong_tag, bind_eq_ok] at among
                  obtain ⟨earlier, read, among⟩ := among
                  cases first with
                  | text word => exact ⟨earlier, ⟨word, whole, read⟩, values, inner, among, names, untagged_tag⟩
                  | _ => cases text rfl
          · simp only [tagged_other named tag, bind_eq_ok, map_eq_ok, parted]
            constructor
            · rintro ⟨first, whole, ⟨found, others⟩, read, ⟨⟩⟩
              obtain ⟨values, inner, among, names, rfl⟩ := ih.mp read
              refine ⟨_, ⟨first, values, whole, inner, rfl⟩, ?_, namesKind_cons.mpr ⟨fun same => absurd same tag, names⟩,
                (untagged_other tag).symm⟩
              rw [kindAmong_other tag, among]
            · rintro ⟨_, ⟨first, values, whole, inner, rfl⟩, among, names, rfl⟩
              rw [kindAmong_other tag] at among
              exact ⟨first, whole, _, ih.mpr ⟨values, inner, among, (namesKind_cons.mp names).2, rfl⟩,
                by rw [untagged_other tag]⟩

theorem readTagged_object_eq_ok {members : List Json.Member} {ending : Json.ObjectEnd} {fields : Value} :
    Json.readTagged title kindKey Json.Choice.readName (room + 1) (.object members ending) = .ok (kind, fields) ↔
      ending = .closed ∧ ∃ others, tagged room members none = .ok (some kind, others) ∧ fields = .object others := by
  simp only [Json.readTagged, bind_eq_ok]
  constructor
  · rintro ⟨⟨found, others⟩, read, _, closed, complete⟩
    cases ending with
    | closed =>
        cases found with
        | none => cases complete
        | some tag =>
            cases complete
            exact ⟨rfl, others, read, rfl⟩
    | _ => cases closed
  · rintro ⟨rfl, others, read, rfl⟩
    exact ⟨(some kind, others), read, (), rfl, rfl⟩

theorem readTagged_list_eq_ok {first : Node} {rest : List Node} {ending : Json.ListEnd} {fields : Value} :
    Json.readTagged title kindKey Json.Choice.readName (room + 1) (.list (first :: rest) ending) = .ok (kind, fields) ↔
      ending = .closed ∧ Json.Choice.readName first = .ok kind ∧
        ∃ others, Node.valueItems room rest = .ok others ∧ fields = .list others := by
  simp only [Json.readTagged, bind_eq_ok]
  constructor
  · rintro ⟨tag, read, others, inner, _, closed, complete⟩
    cases ending with
    | closed =>
        cases complete
        exact ⟨rfl, read, others, inner, rfl⟩
    | _ => cases closed
  · rintro ⟨rfl, read, others, inner, rfl⟩
    exact ⟨kind, read, others, inner, (), rfl, rfl⟩

/-- An effect is read straight from a text exactly if it can be read from its value and gives its kind by name. -/
theorem readNode_eq_ok {node : Node} {effect : Effect} :
    readNode room node = .ok effect ↔
      ∃ value, node.value room = .ok value ∧ namesKind value = true ∧ readValue value = .ok effect := by
  cases node with
  | object members ending =>
      cases room with
      | zero => simp [readNode, Json.readTagged, Node.value, bind, Except.bind]
      | succ room =>
          simp only [readNode, bind_eq_ok, Prod.exists, readTagged_object_eq_ok, tagged_eq_ok, Node.value_object_eq_ok]
          constructor
          · rintro ⟨kind, _, ⟨rfl, _, ⟨values, inner, among, names, rfl⟩, rfl⟩, read⟩
            refine ⟨_, ⟨rfl, room, values, rfl, inner, rfl⟩, names, ?_⟩
            rw [ofFields, readMembers_untagged] at read
            rw [readValue, among]
            exact read
          · rintro ⟨_, ⟨rfl, _, values, ⟨⟩, inner, rfl⟩, names, read⟩
            rw [readValue, bind_eq_ok] at read
            obtain ⟨kind, among, read⟩ := read
            refine ⟨kind, _, ⟨rfl, _, ⟨values, inner, among, names, rfl⟩, rfl⟩, ?_⟩
            rw [ofFields, readMembers_untagged]
            exact read
  | list items ending =>
      cases room with
      | zero => simp [readNode, Json.readTagged, Node.value, bind, Except.bind]
      | succ room =>
          cases items with
          | nil =>
              simp [readNode, Json.readTagged, Node.value_list_eq_ok, Node.valueItems, readValue, bind_eq_ok]
          | cons first rest =>
              simp only [readNode, bind_eq_ok, Prod.exists, readTagged_list_eq_ok, Node.value_list_eq_ok,
                Node.valueItems_cons_eq_ok, readName_eq_ok room]
              constructor
              · rintro ⟨kind, _, ⟨rfl, ⟨name, whole, tag⟩, others, inner, rfl⟩, read⟩
                refine ⟨_, ⟨rfl, room, _, rfl, ⟨_, others, whole, inner, rfl⟩, rfl⟩, rfl, ?_⟩
                rw [readValue, tag]
                exact read
              · rintro ⟨_, ⟨rfl, _, _, ⟨⟩, ⟨value, others, whole, inner, rfl⟩, rfl⟩, names, read⟩
                rw [readValue, bind_eq_ok] at read
                obtain ⟨kind, tag, read⟩ := read
                cases value with
                | text name => exact ⟨kind, _, ⟨rfl, ⟨name, whole, tag⟩, others, inner, rfl⟩, read⟩
                | _ => cases names
  | number scanned => simp [readNode, Json.readTagged, Node.value, map_eq_ok, bind, Except.bind, readValue]
  | text scanned => simp [readNode, Json.readTagged, Node.value, map_eq_ok, bind, Except.bind, readValue]
  | _ => simp [readNode, Json.readTagged, Node.value, bind, Except.bind, readValue]

theorem readItems_eq_ok {items : List Node} {effects : List Effect} :
    Node.readItems (readNode room) items = .ok effects ↔
      ∃ values, Node.valueItems room items = .ok values ∧ (∀ value ∈ values, namesKind value = true) ∧
        readEffects values = .ok effects := by
  induction items generalizing effects with
  | nil => simp [Node.readItems, Node.valueItems, readEffects]
  | cons item rest ih =>
      simp only [Node.readItems, bind_eq_ok, readNode_eq_ok, ih, Node.valueItems_cons_eq_ok]
      constructor
      · rintro ⟨first, ⟨value, whole, named, read⟩, others, ⟨values, inner, names, reads⟩, ⟨⟩⟩
        refine ⟨_, ⟨value, values, whole, inner, rfl⟩, List.forall_mem_cons.mpr ⟨named, names⟩, ?_⟩
        rw [readEffects, read, reads]
        rfl
      · rintro ⟨_, ⟨value, values, whole, inner, rfl⟩, names, read⟩
        obtain ⟨named, names⟩ := List.forall_mem_cons.mp names
        rw [readEffects, bind_eq_ok] at read
        obtain ⟨first, read, reads⟩ := read
        obtain ⟨others, reads, complete⟩ := bind_eq_ok.mp reads
        exact ⟨first, ⟨value, whole, named, read⟩, others, ⟨values, inner, names, reads⟩, complete⟩

end Effect

namespace Pipeline

open Json (Node Denotes Document)

theorem readNode_eq_ok {room : Nat} {node : Node} {pipeline : Pipeline} :
    readNode room node = .ok pipeline ↔
      ∃ values, node.value room = .ok (.list values) ∧ (∀ value ∈ values, Effect.namesKind value = true) ∧
        Effect.readEffects values = .ok pipeline.effects := by
  cases node with
  | list items ending =>
      cases room with
      | zero => simp [readNode, Node.readList, Except.map, Node.value]
      | succ room =>
          simp only [readNode, map_eq_ok, Node.readList, bind_eq_ok, Effect.readItems_eq_ok, Node.value_list_eq_ok]
          constructor
          · rintro ⟨effects, ⟨_, ⟨values, inner, names, read⟩, _, closed, ⟨⟩⟩, rfl⟩
            cases ending with
            | closed => exact ⟨values, ⟨rfl, room, values, rfl, inner, rfl⟩, names, read⟩
            | _ => cases closed
          · rintro ⟨values, ⟨rfl, _, _, ⟨⟩, inner, ⟨⟩⟩, names, read⟩
            exact ⟨_, ⟨_, ⟨values, inner, names, read⟩, (), rfl, rfl⟩, rfl⟩
  | object members ending => simp [readNode, Node.readList, Except.map, Node.value_object_eq_ok]
  | number scanned | text scanned =>
      constructor
      · rintro ⟨⟩
      · rintro ⟨values, read, _⟩
        obtain ⟨_, _, ⟨⟩⟩ := map_eq_ok.mp read
  | _ => simp [readNode, Node.readList, Except.map, Node.value]

theorem ofText_eq_ok_of_spelledBy {tree : Node} {text : String} (spelled : tree.SpelledBy text) {pipeline : Pipeline} :
    ofText text = .ok pipeline ↔
      ∃ values, tree.value Document.depthLimit = .ok (.list values) ∧ (∀ value ∈ values, Effect.namesKind value = true) ∧
        Effect.readEffects values = .ok pipeline.effects := by
  rw [ofText, mapError_eq_ok, Document.read_eq_ok, spelled.ofText, readNode_eq_ok]
  exact and_iff_left rfl

/-- A text is read as a pipeline exactly if it spells a list, not nested too deep, of effects that give their kinds by
name, and the effects of the pipeline are what can be read of the items. -/
theorem ofText_eq_ok {text : String} {pipeline : Pipeline} :
    ofText text = .ok pipeline ↔
      ∃ values, Denotes text (.list values) ∧ (Value.list values).nesting ≤ Document.depthLimit ∧
        (∀ value ∈ values, Effect.namesKind value = true) ∧ Effect.readEffects values = .ok pipeline.effects := by
  rw [ofText, mapError_eq_ok, Document.read_eq_ok, readNode_eq_ok]
  simp only [← and_assoc, ← Document.read_value_eq_ok, Document.read_eq_ok]
  constructor
  · rintro ⟨⟨values, ⟨whole, names⟩, read⟩, complete⟩
    exact ⟨values, ⟨⟨whole, complete⟩, names⟩, read⟩
  · rintro ⟨values, ⟨⟨whole, complete⟩, names⟩, read⟩
    exact ⟨⟨values, ⟨whole, names⟩, read⟩, complete⟩

end Pipeline

end VisualEffects
