import Mathlib.Logic.Function.Iterate
import VisualEffects.Proofs.Embedding
import VisualEffects.Proofs.Reading

namespace VisualEffects

/-! A list of effects means the same at the top of a text and as the branch of a blend.

The list of a branch is read from a value that was read whole before, the list of a pipeline straight from the text.  Both
readers take the same lists and make the same effects of them, except that in a branch a kind may be given by its number.
-/

open Json (Node Value Draft Document)

namespace Json

/-- The value of a pipeline of two effects: the backdrop of the window, and a blend with a value as its branch. -/
def Value.underBlend (branch : Value) : Value :=
  .list [.object [("kind", .text "backdrop"), ("source", .text "backdrop")],
    .object [("kind", .text "blend"), ("input", branch)]]

namespace Node

/-- The tree of a pipeline of two effects: the backdrop of the window, and a blend with a tree as its branch. -/
def underBlend (tree : Node) : Node :=
  .list [.object [(.whole (.ok "kind"), .text (.whole (.ok "backdrop"))),
      (.whole (.ok "source"), .text (.whole (.ok "backdrop")))] .closed,
    .object [(.whole (.ok "kind"), .text (.whole (.ok "blend"))), (.whole (.ok "input"), tree)] .closed] .closed

theorem nesting_underBlend (tree : Node) : tree.underBlend.nesting = tree.nesting + 2 := by
  simp only [underBlend, nesting, nestingItems, nestingMembers]
  omega

theorem value_underBlend (tree : Node) (room : Nat) :
    tree.underBlend.value (room + 2) = (tree.value room).map Value.underBlend := by
  simp only [underBlend, Node.value, valueItems, valueMembers]
  cases tree.value room <;> rfl

end Node

end Json

namespace Effect

theorem readValue_blend (branch : Value) :
    readValue (.object [("kind", .text "blend"), ("input", branch)]) =
      (readBranch branch).map (.blend · .multiply .foreground) := by
  have tag : kindAmong [("kind", .text "blend"), ("input", branch)] none = .ok .blend := rfl
  have kindField : Kind.blend.layout.field? "kind" = none := rfl
  have inputField : Kind.blend.layout.field? "input" = some .input := rfl
  rw [readValue, tag]
  simp only [bind, Except.bind, readMembers, kindField, inputField, dif_pos, Draft.putOnce, Draft.empty]
  cases readBranch branch <;> rfl

theorem readBranch_underBlend (branch : Value) :
    readBranch branch.underBlend =
      (readBranch branch).map fun effects => [.backdrop .window, .blend effects .multiply .foreground] := by
  have backdrop : readValue (.object [("kind", .text "backdrop"), ("source", .text "backdrop")]) =
      .ok (.backdrop .window) := rfl
  rw [Value.underBlend, readBranch, readEffects, readEffects, readEffects, backdrop, readValue_blend]
  cases readBranch branch <;> rfl

end Effect

namespace Pipeline

/-- The text of a pipeline of two effects up to the branch of its blend. -/
def blendOpening : String :=
  "[\x7b\"kind\":\"backdrop\",\"source\":\"backdrop\"\x7d,\x7b\"kind\":\"blend\",\"input\":"

/-- The text of a pipeline of two effects: the backdrop of the window, and a blend with a text as its branch. -/
def textUnderBlend (text : String) : String := blendOpening ++ text ++ "\x7d]"

def underBlend (pipeline : Pipeline) : Pipeline := ⟨[.backdrop .window, .blend pipeline.effects .multiply .foreground]⟩

theorem toList_textUnderBlend (text : String) :
    (textUnderBlend text).toList =
      '[' :: '{' :: (Value.writtenText "kind" ++ ':' :: (Value.writtenText "backdrop" ++ ',' ::
        (Value.writtenText "source" ++ ':' :: (Value.writtenText "backdrop" ++ '}' :: ',' :: '{' ::
          (Value.writtenText "kind" ++ ':' :: (Value.writtenText "blend" ++ ',' ::
            (Value.writtenText "input" ++ ':' :: (text.toList ++ ['}', ']']))))))))  := by
  have opening : blendOpening.toList =
      '[' :: '{' :: Value.writtenText "kind" ++ ':' :: Value.writtenText "backdrop" ++ ',' ::
        Value.writtenText "source" ++ ':' :: Value.writtenText "backdrop" ++ '}' :: ',' :: '{' ::
          Value.writtenText "kind" ++ ':' :: Value.writtenText "blend" ++ ',' ::
            Value.writtenText "input" ++ [':'] := by decide +kernel
  have closing : "\x7d]".toList = ['}', ']'] := rfl
  rw [textUnderBlend, String.toList_append, String.toList_append, opening, closing]
  simp only [List.append_assoc, List.cons_append, List.nil_append]

theorem spelledBy_textUnderBlend {tree : Node} {text : String} (spelled : tree.SpelledBy text) :
    tree.underBlend.SpelledBy (textUnderBlend text) := by
  obtain ⟨rest, spelled, blank⟩ := spelled
  have stops : Json.Numeral.Stops ['}', ']'] := Json.Numeral.stops_cons (by decide) _
  have ended : Json.unblanked (rest ++ ['}', ']']) = ['}', ']'] := Json.unblanked_append_of_nil blank _
  have literal := Json.literal_writtenText
  refine ⟨[], ?_, rfl⟩
  rw [toList_textUnderBlend]
  have branch : Node.Spells (.object [(.whole (.ok "kind"), .text (.whole (.ok "blend"))),
      (.whole (.ok "input"), tree)] .closed) ('{' :: (Value.writtenText "kind" ++ ':' :: (Value.writtenText "blend" ++
        ',' :: (Value.writtenText "input" ++ ':' :: (text.toList ++ ['}', ']']))))) [']'] :=
    ⟨rfl, _, rfl, _, _, _, literal "kind" _, rfl, literal "blend" _, _, _, _, _, rfl, literal "input" _, rfl,
      spelled.append tree stops, ended⟩
  exact ⟨rfl, _, rfl, _, ⟨rfl, _, rfl, _, _, _, literal "kind" _, rfl, literal "backdrop" _, _, _, _, _, rfl,
    literal "source" _, rfl, literal "backdrop" _, rfl⟩, _, _, rfl, branch, rfl⟩

/-- Whether a tree is read as a branch that holds the effects of a pipeline. -/
def IsBranch (pipeline : Pipeline) (tree : Node) : Prop :=
  ∃ value, tree.value Document.depthLimit = .ok value ∧ Effect.readBranch value = .ok pipeline.effects

/-- Whether the effects of a tree's own list give their kinds by name. -/
def NamesKinds (tree : Node) : Prop :=
  ∀ values, tree.value Document.depthLimit = .ok (.list values) → ∀ value ∈ values, Effect.namesKind value = true

variable {tree : Node} {text : String} {pipeline : Pipeline}

theorem ofText_eq_ok_iff_isBranch (spelled : tree.SpelledBy text) :
    ofText text = .ok pipeline ↔ pipeline.IsBranch tree ∧ NamesKinds tree := by
  rw [ofText_eq_ok_of_spelledBy spelled]
  constructor
  · rintro ⟨values, whole, names, read⟩
    refine ⟨⟨_, whole, read⟩, fun others known => ?_⟩
    cases whole.symm.trans known
    exact names
  · rintro ⟨⟨value, whole, read⟩, names⟩
    cases value with
    | list values => exact ⟨values, whole, names values whole, read⟩
    | _ => cases read

theorem isBranch_underBlend (shallow : tree.nesting ≤ 125) :
    pipeline.underBlend.IsBranch tree.underBlend ↔ pipeline.IsBranch tree := by
  have deeper : tree.underBlend.value Document.depthLimit = (tree.value 125).map Value.underBlend :=
    tree.value_underBlend 125
  simp only [IsBranch, deeper, map_eq_ok]
  constructor
  · rintro ⟨_, ⟨value, whole, rfl⟩, read⟩
    obtain ⟨_, fits, again⟩ := Node.nesting_of_value tree whole
    rw [Effect.readBranch_underBlend, map_eq_ok] at read
    obtain ⟨effects, read, same⟩ := read
    refine ⟨value, again (Nat.le_trans fits (by decide)), ?_⟩
    cases same
    exact read
  · rintro ⟨value, whole, read⟩
    obtain ⟨_, _, again⟩ := Node.nesting_of_value tree whole
    refine ⟨_, ⟨value, again shallow, rfl⟩, ?_⟩
    rw [Effect.readBranch_underBlend, read]
    rfl

theorem namesKinds_underBlend (tree : Node) : NamesKinds tree.underBlend := by
  intro values whole
  have deeper : tree.underBlend.value Document.depthLimit = (tree.value 125).map Value.underBlend :=
    tree.value_underBlend 125
  rw [deeper, map_eq_ok] at whole
  obtain ⟨value, _, same⟩ := whole
  cases same
  exact List.forall_mem_cons.mpr ⟨rfl, List.forall_mem_singleton.mpr rfl⟩

/-- Below a blend, how deep a tree stands makes no difference to the branch that it is read as. -/
theorem isBranch_iterate_underBlend (depth : Nat) (shallow : tree.nesting + 2 * depth ≤ 127) :
    (underBlend^[depth] pipeline).IsBranch (Node.underBlend^[depth] tree) ↔ pipeline.IsBranch tree := by
  induction depth generalizing tree pipeline with
  | zero => exact Iff.rfl
  | succ depth ih =>
      rw [Function.iterate_succ_apply, Function.iterate_succ_apply, ih (by rw [Node.nesting_underBlend]; omega)]
      exact isBranch_underBlend (by omega)

theorem spelledBy_iterate_underBlend (spelled : tree.SpelledBy text) (depth : Nat) :
    (Node.underBlend^[depth] tree).SpelledBy (textUnderBlend^[depth] text) := by
  induction depth generalizing tree text with
  | zero => exact spelled
  | succ depth ih => exact ih (spelledBy_textUnderBlend spelled)

/-- A text that holds one value, not nested too deep, is read as a pipeline exactly if it is read as the same effects
where it stands as the branch of a blend and each effect of its own list gives its kind by name.  Under one blend or
under many it is read as the same effects. -/
theorem ofText_iff_under_blend (spelled : tree.SpelledBy text) (shallow : tree.nesting ≤ 125) (pipeline : Pipeline) :
    (ofText text = .ok pipeline ↔ ofText (textUnderBlend text) = .ok pipeline.underBlend ∧ NamesKinds tree) ∧
    ∀ depth, tree.nesting + 2 * depth ≤ 125 →
      (ofText (textUnderBlend^[depth + 1] text) = .ok (underBlend^[depth + 1] pipeline) ↔
        ofText (textUnderBlend text) = .ok pipeline.underBlend) := by
  have under (depth : Nat) (fits : tree.nesting + 2 * depth ≤ 125) :
      ofText (textUnderBlend^[depth + 1] text) = .ok (underBlend^[depth + 1] pipeline) ↔ pipeline.IsBranch tree := by
    have names : NamesKinds (Node.underBlend^[depth + 1] tree) := by
      rw [Function.iterate_succ_apply']
      exact namesKinds_underBlend _
    rw [ofText_eq_ok_iff_isBranch (spelledBy_iterate_underBlend spelled (depth + 1)), and_iff_left names]
    exact isBranch_iterate_underBlend (depth + 1) (by omega)
  have once : ofText (textUnderBlend text) = .ok pipeline.underBlend ↔ pipeline.IsBranch tree := under 0 shallow
  refine ⟨?_, fun depth fits => ?_⟩
  · rw [once, ofText_eq_ok_iff_isBranch spelled]
  · rw [once, under depth fits]

/-- A list of a backdrop of the window, with a value for its kind. -/
def backdropOfKind (kind : Value) : Value := .list [.object [("kind", kind), ("source", .text "backdrop")]]

theorem ofText_iff_under_blend_of_backdrop :
    let text := "[\x7b\"kind\":\"backdrop\",\"source\":\"backdrop\"\x7d]"
    let tree := (backdropOfKind (.text "backdrop")).node
    tree.SpelledBy text ∧ tree.nesting ≤ 125 ∧ ofText text = .ok ⟨[.backdrop .window]⟩ ∧
      ofText (textUnderBlend text) = .ok (underBlend ⟨[.backdrop .window]⟩) := by
  intro text tree
  have spelled : tree.SpelledBy text := by
    have line : (backdropOfKind (.text "backdrop")).line = text := by decide +kernel
    exact line ▸ Value.spelledBy_line (List.forall_mem_nil _)
  have shallow : tree.nesting ≤ 125 := by decide
  have names : NamesKinds tree := by
    rintro _ ⟨⟩
    exact List.forall_mem_singleton.mpr rfl
  have read := (ofText_eq_ok_iff_isBranch spelled).mpr ⟨⟨_, rfl, rfl⟩, names⟩
  exact ⟨spelled, shallow, read, ((ofText_iff_under_blend spelled shallow _).1.mp read).1⟩

/-- A list whose effect gives its kind by its number is the branch of a blend, but is no pipeline. -/
theorem only_under_blend_of_numbered_kind :
    let text := "[\x7b\"kind\":0,\"source\":\"backdrop\"\x7d]"
    (∃ tree : Node, tree.SpelledBy text ∧ tree.nesting ≤ 125) ∧
      ofText (textUnderBlend text) = .ok (underBlend ⟨[.backdrop .window]⟩) ∧
        ∀ pipeline, ofText text ≠ .ok pipeline := by
  intro text
  let tree := (backdropOfKind (.number (.integer 0))).node
  have spelled : tree.SpelledBy text := by
    have line : (backdropOfKind (.number (.integer 0))).line = text := by decide +kernel
    exact line ▸ Value.spelledBy_line (List.forall_mem_singleton.mpr trivial)
  refine ⟨⟨tree, spelled, by decide⟩, ?_, fun pipeline read => ?_⟩
  · exact (ofText_eq_ok_iff_isBranch (spelledBy_textUnderBlend spelled)).mpr
      ⟨(isBranch_underBlend (by decide)).mpr ⟨_, rfl, rfl⟩, namesKinds_underBlend tree⟩
  · obtain ⟨_, names⟩ := (ofText_eq_ok_iff_isBranch spelled).mp read
    cases names _ rfl _ List.mem_cons_self

end Pipeline

end VisualEffects
