import VisualEffects.Proofs.Branches
import VisualEffects.Proofs.Limits
import VisualEffects.Proofs.Lint

namespace VisualEffects

/-! How deep the branches of a pipeline that was read from a text can be nested.

A blend and its branch are an object and a list, so a list under `n` blends stands in `2 * n` further lists and objects.
A text may nest 127 of them.  That bounds the branches of every pipeline that was read, whatever limit it is checked under
afterwards.
-/

open Json (Value Fault Fields Draft)

namespace Json

theorem Draft.putOnce_eq_ok {φ : Type} [Fields φ] [DecidableEq φ] {draft after : Draft φ} {field : φ}
    {content : Except Fault (Fields.Content field)} :
    draft.putOnce field content = .ok after ↔
      draft field = none ∧ ∃ found, content = .ok found ∧ draft.put field found = after := by
  rw [putOnce]
  cases free : draft field <;> simp [map_eq_ok]

theorem Draft.put_eq_some {φ : Type} [Fields φ] [DecidableEq φ] {draft : Draft φ} {field other : φ}
    {content : Fields.Content field} {found : Fields.Content other}
    (held : draft.put field content other = some found) :
    draft other = some found ∨ ∃ same : field = other, same ▸ content = found := by
  by_cases same : field = other
  · subst same
    rw [put_self] at held
    exact .inr ⟨rfl, Option.some.inj held⟩
  · rw [put_other draft content same] at held
    exact .inl held

/-- What a draft holds after members have been read was there before or was read of one of them. -/
theorem Layout.exists_member_of_readMembers {φ : Type} [Fields φ] [DecidableEq φ] {layout : Layout φ}
    {read : (field : φ) → Value → Except Fault (Fields.Content field)} {members : List (String × Value)}
    {draft after : Draft φ} (filled : layout.readMembers read members draft = .ok after) {field : φ}
    {content : Fields.Content field} (held : after field = some content) :
    draft field = some content ∨ ∃ member ∈ members, read field member.2 = .ok content := by
  induction members generalizing draft with
  | nil =>
      cases filled
      exact .inl held
  | cons member rest ih =>
      rw [readMembers] at filled
      cases known : layout.field? member.1 with
      | none =>
          simp only [known] at filled
          rcases ih filled with before | ⟨other, inside, found⟩
          · exact .inl before
          · exact .inr ⟨other, List.mem_cons_of_mem _ inside, found⟩
      | some named =>
          simp only [known, bind_eq_ok, Draft.putOnce_eq_ok] at filled
          obtain ⟨_, ⟨_, here, read, rfl⟩, filled⟩ := filled
          rcases ih filled with before | ⟨other, inside, found⟩
          · rcases Draft.put_eq_some before with before | ⟨rfl, rfl⟩
            · exact .inl before
            · exact .inr ⟨member, List.mem_cons_self, read⟩
          · exact .inr ⟨other, List.mem_cons_of_mem _ inside, found⟩

namespace Value

theorem nesting_le_nestingItems {items : List Value} {item : Value} (inside : item ∈ items) :
    item.nesting ≤ nestingItems items := by
  induction items with
  | nil => cases inside
  | cons first rest ih =>
      simp only [nestingItems]
      rcases List.mem_cons.mp inside with rfl | later
      · omega
      · have := ih later
        omega

theorem nesting_le_nestingMembers {members : List (String × Value)} {member : String × Value}
    (inside : member ∈ members) : member.2.nesting ≤ nestingMembers members := by
  induction members with
  | nil => cases inside
  | cons first rest ih =>
      simp only [nestingMembers]
      rcases List.mem_cons.mp inside with rfl | later
      · omega
      · have := ih later
        omega

end Value

end Json

namespace Effect

theorem readItems_cons (kind : Kind) (index : Nat) (item : Value) (rest : List Value) (field : Field)
    (fields : List Field) (draft : Draft Field) :
    readItems kind index (item :: rest) (field :: fields) draft =
      (readContent field item >>= fun content => readItems kind (index + 1) rest fields (draft.put field content)) := by
  rw [readItems, readContent]
  split <;> rfl

theorem exists_item_of_readItems {kind : Kind} {index : Nat} {items : List Value} {fields : List Field}
    {draft after : Draft Field} (filled : readItems kind index items fields draft = .ok after) {field : Field}
    {content : Fields.Content field} (held : after field = some content) :
    draft field = some content ∨ ∃ item ∈ items, readContent field item = .ok content := by
  induction items generalizing index fields draft with
  | nil =>
      rw [readItems, bind_eq_ok] at filled
      obtain ⟨_, _, filled⟩ := filled
      cases filled
      exact .inl held
  | cons item rest ih =>
      cases fields with
      | nil =>
          rw [readItems] at filled
          cases filled
      | cons named others =>
          rw [readItems_cons, bind_eq_ok] at filled
          obtain ⟨here, read, filled⟩ := filled
          rcases ih filled with before | ⟨other, inside, found⟩
          · rcases Draft.put_eq_some before with before | ⟨rfl, rfl⟩
            · exact .inl before
            · exact .inr ⟨item, List.mem_cons_self, read⟩
          · exact .inr ⟨other, List.mem_cons_of_mem _ inside, found⟩

theorem input_of_ofDraft {kind : Kind} {draft : Draft Field} {branch : List Effect} {mode : BlendMode}
    {placement : Placement} (made : ofDraft kind draft = .ok (.blend branch mode placement)) :
    draft .input = some branch := by
  cases kind with
  | blend =>
      rw [ofDraft] at made
      obtain ⟨input, needed, made⟩ := bind_eq_ok.mp made
      cases made
      rw [Draft.need] at needed
      cases held : draft .input with
      | none => simp [held] at needed
      | some content => simpa [held] using needed
  | luminance => cases made
  | _ =>
      simp only [ofDraft, bind_eq_ok] at made
      simp [pure, Except.pure] at made

theorem exists_items_of_readContent {value : Value} {branch : List Effect}
    (read : readContent .input value = .ok branch) :
    ∃ items, value = .list items ∧ readEffects items = .ok branch := by
  rw [readContent, dif_pos rfl, map_eq_ok] at read
  obtain ⟨_, read, rfl⟩ := read
  cases value with
  | list items => exact ⟨items, rfl, read⟩
  | _ => cases read

/-- The items of a branch are nested two levels less deep than the blend that they were read with. -/
theorem exists_items_of_readValue {value : Value} {branch : List Effect} {mode : BlendMode} {placement : Placement}
    (read : readValue value = .ok (.blend branch mode placement)) :
    ∃ items, readEffects items = .ok branch ∧ Value.nestingItems items + 2 ≤ value.nesting := by
  cases value with
  | object members =>
      rw [readValue] at read
      simp only [bind_eq_ok, readMembers_eq] at read
      obtain ⟨kind, _, draft, filled, made⟩ := read
      rcases Json.Layout.exists_member_of_readMembers filled (input_of_ofDraft made) with ⟨⟨⟩⟩ | ⟨member, inside, found⟩
      obtain ⟨items, same, read⟩ := exists_items_of_readContent found
      have below := Value.nesting_le_nestingMembers inside
      rw [same] at below
      exact ⟨items, read, Nat.succ_le_succ below⟩
  | list values =>
      cases values with
      | nil =>
          rw [readValue] at read
          cases read
      | cons first rest =>
          rw [readValue] at read
          simp only [bind_eq_ok] at read
          obtain ⟨kind, _, draft, filled, made⟩ := read
          rcases exists_item_of_readItems filled (input_of_ofDraft made) with ⟨⟨⟩⟩ | ⟨item, inside, found⟩
          obtain ⟨items, same, read⟩ := exists_items_of_readContent found
          have below := Value.nesting_le_nestingItems (List.mem_cons_of_mem first inside)
          rw [same] at below
          exact ⟨items, read, Nat.succ_le_succ below⟩
  | _ =>
      rw [readValue] at read
      · cases read
      all_goals simp

theorem depth_le_of_readEffects {items : List Value} {effects : List Effect} (read : readEffects items = .ok effects)
    {bound : Nat} (shallow : Value.nestingItems items ≤ bound) (depth : Nat) :
    ∀ layer ∈ layersUnder depth effects, 2 * layer.depth ≤ 2 * depth + bound := by
  -- Branches are followed by the bound, which falls by two with each, and the effects of one list by the list.
  induction bound using Nat.strongRecOn generalizing items effects depth with
  | ind bound deeper =>
      induction items generalizing effects with
      | nil =>
          cases read
          exact List.forall_mem_nil _
      | cons value rest ih =>
          simp only [readEffects, bind_eq_ok] at read
          obtain ⟨effect, first, others, later, ⟨⟩⟩ := read
          simp only [Value.nestingItems, Nat.max_le] at shallow
          refine List.forall_mem_append.mpr ⟨?_, ih later shallow.2⟩
          cases effect with
          | blend branch mode placement =>
              obtain ⟨inner, found, below⟩ := exists_items_of_readValue first
              have branches := deeper (bound - 2) (by omega) found (by omega) (depth + 1)
              refine List.forall_mem_cons.mpr ⟨?_, fun layer inside => ?_⟩
              · show 2 * (depth + 1) ≤ 2 * depth + bound
                omega
              · have := branches layer inside
                omega
          | _ => exact List.forall_mem_nil _

end Effect

namespace Lint

/-- Whether none of some violations speaks of depth, as long as all of the lists stand within the limit. -/
def Plain (limit : Nat) (layers : List Layer) (violations : List Error) : Prop :=
  (∀ layer ∈ layers, layer.depth ≤ limit) → ∀ reason, Error.validation reason ∉ violations

theorem Plain.append {limit : Nat} {first second : List Layer} {earlier later : List Error}
    (here : Plain limit first earlier) (there : Plain limit second later) :
    Plain limit (first ++ second) (earlier ++ later) := by
  intro shallow reason inside
  obtain ⟨left, right⟩ := List.forall_mem_append.mp shallow
  exact (List.mem_append.mp inside).elim (here left reason) (there right reason)

theorem validation_notMem_ofStart (effect : Effect) (reason : String) : Error.validation reason ∉ ofStart effect := by
  cases effect with
  | backdrop source => cases source <;> simp [ofStart, Effect.isSource, Effect.kind, Effect.Kind.isSource]
  | acrylic source => cases source <;> simp [ofStart, Effect.isSource, Effect.kind, Effect.Kind.isSource]
  | _ => simp [ofStart, Effect.isSource, Effect.kind, Effect.Kind.isSource]

mutual
theorem ofList_plain (limit depth : Nat) (effects : List Effect) :
    Plain limit (Effect.layers depth effects) (ofList limit depth effects) := by
  intro shallow reason
  obtain ⟨here, below⟩ := List.forall_mem_cons.mp shallow
  unfold ofList
  rw [if_neg (Nat.not_lt.mpr here)]
  cases effects with
  | nil => simp
  | cons first rest =>
      intro inside
      rcases List.mem_append.mp inside with start | later
      · exact validation_notMem_ofStart first reason start
      · exact ofRest_plain limit depth 1 rest (List.forall_mem_append.mp below).2 reason later

theorem ofRest_plain (limit depth index : Nat) (effects : List Effect) :
    Plain limit (Effect.layersUnder depth effects) (ofRest limit depth index effects) := by
  cases effects with
  | nil => simp [Plain, ofRest]
  | cons effect rest =>
      exact (ofFollower_plain limit depth index effect).append (ofRest_plain limit depth (index + 1) rest)

theorem ofFollower_plain (limit depth index : Nat) (effect : Effect) :
    Plain limit (Effect.layersOf depth effect) (ofFollower limit depth index effect) := by
  cases effect with
  | blend branch mode placement => exact ofList_plain limit (depth + 1) branch
  | _ => simp [Plain, ofFollower, Effect.isSource, Effect.kind, Effect.Kind.isSource]
end

end Lint

section
variable {options : CompileOptions} {effects : List Effect}

theorem validate_ne_validation (shallow : ∀ layer ∈ Effect.layers 0 effects, layer.depth ≤ options.maxBranchDepth)
    (reason : String) : validate options effects ≠ .error (.validation reason) := by
  intro failed
  have reports := Lint.ofList_reports options.maxBranchDepth 0 effects
  have plain := Lint.ofList_plain options.maxBranchDepth 0 effects shallow reason
  cases found : Lint.ofList options.maxBranchDepth 0 effects with
  | nil =>
      rw [found] at reports
      obtain ⟨shape, accepted⟩ := reports
      cases failed.symm.trans accepted
  | cons first others =>
      rw [found] at reports plain
      cases failed.symm.trans reports
      exact plain List.mem_cons_self

/-- Limits that admit all lists of a tree make no difference to its check. -/
theorem validate_eq_of_shallow {higher : CompileOptions} (raised : options.maxBranchDepth ≤ higher.maxBranchDepth)
    (shallow : ∀ layer ∈ Effect.layers 0 effects, layer.depth ≤ options.maxBranchDepth) :
    validate higher effects = validate options effects := by
  rcases validate_lowered raised effects with same | refused
  · exact same.symm
  · exact absurd refused (validate_ne_validation shallow _)

end

section
variable {σ ν : Type} (backend : Backend σ ν) (instead : List Effect → Action σ ν)

mutual
/-- Builds a list, but does something else in place of every branch that more than `room` blends stand around. -/
def buildWithin (room : Nat) : List Effect → Action σ ν
  | [] => throw .emptyPipeline
  | first :: rest => do
      let source ← Action.ofExcept first.source
      let node ← backend (.source source)
      extendWithin room 1 node rest

def extendWithin (room index : Nat) (node : ν) : List Effect → Action σ ν
  | [] => pure node
  | effect :: rest => do
      let node ← wrapWithin room index node effect
      extendWithin room (index + 1) node rest

def wrapWithin (room index : Nat) (node : ν) : Effect → Action σ ν
  | .blend branch mode placement => do
      let branchNode ← match room with
        | 0 => instead branch
        | room + 1 => buildWithin room branch
      backend (.blend mode placement node branchNode)
  | effect =>
      match effect.transform? with
      | some transform => backend (.transform transform node)
      | none => throw (.invalidTransform index effect.kind.name)
end

mutual
theorem buildWithin_eq_build {room depth : Nat} (effects : List Effect)
    (shallow : ∀ layer ∈ Effect.layersUnder depth effects, layer.depth ≤ depth + room) :
    buildWithin backend instead room effects = build backend effects := by
  cases effects with
  | nil => rfl
  | cons first rest =>
      have followers := (List.forall_mem_append.mp shallow).2
      rw [buildWithin, build]
      exact bind_congr fun source => bind_congr fun node => extendWithin_eq_extend 1 node rest followers

theorem extendWithin_eq_extend {room depth : Nat} (index : Nat) (node : ν) (effects : List Effect)
    (shallow : ∀ layer ∈ Effect.layersUnder depth effects, layer.depth ≤ depth + room) :
    extendWithin backend instead room index node effects = extend backend index node effects := by
  cases effects with
  | nil => rfl
  | cons effect rest =>
      obtain ⟨here, others⟩ := List.forall_mem_append.mp shallow
      rw [extendWithin, extend, wrapWithin_eq_wrap index node effect here]
      exact bind_congr fun node => extendWithin_eq_extend (index + 1) node rest others

theorem wrapWithin_eq_wrap {room depth : Nat} (index : Nat) (node : ν) (effect : Effect)
    (shallow : ∀ layer ∈ Effect.layersOf depth effect, layer.depth ≤ depth + room) :
    wrapWithin backend instead room index node effect = wrap backend index node effect := by
  cases effect with
  | blend branch mode placement =>
      obtain ⟨here, below⟩ := List.forall_mem_cons.mp shallow
      cases room with
      | zero => simp at here
      | succ room =>
          have inner : ∀ layer ∈ Effect.layersUnder (depth + 1) branch, layer.depth ≤ depth + 1 + room := by
            intro layer inside
            have := below layer inside
            omega
          rw [wrapWithin, wrap, buildWithin_eq_build branch inner]
  | _ => rfl
end

end

namespace Pipeline

variable {text : String} {pipeline : Pipeline}

theorem depth_le_of_ofText (read : ofText text = .ok pipeline) :
    ∀ layer ∈ Effect.layers 0 pipeline.effects, layer.depth ≤ 63 := by
  obtain ⟨values, _, fits, _, read⟩ := ofText_eq_ok.mp read
  have shallow : Value.nestingItems values ≤ 126 := Nat.le_of_succ_le_succ fits
  refine List.forall_mem_cons.mpr ⟨Nat.zero_le _, fun layer inside => ?_⟩
  have := Effect.depth_le_of_readEffects read shallow 0 layer inside
  omega

theorem layers_iterate_underBlend (depth count : Nat) (pipeline : Pipeline) :
    ⟨depth + count, pipeline.effects⟩ ∈ Effect.layers depth (underBlend^[count] pipeline).effects := by
  induction count generalizing depth with
  | zero => exact List.mem_cons_self
  | succ count ih =>
      have inner := ih (depth + 1)
      rw [Nat.add_assoc, Nat.add_comm 1] at inner
      rw [Function.iterate_succ_apply']
      refine List.mem_cons_of_mem _ ?_
      simpa only [underBlend, Effect.layers, Effect.layersUnder, Effect.layersOf, List.nil_append, List.append_nil]
        using inner

/-- No list of a pipeline that was read from a text stands under more than 63 blends.  So all limits from 63 on are the
same to its check, which never speaks of depth under them, and building it never enters a branch under more blends.
When compiling it fails for a reason that only a check of depth or a backend can give, the backend gave it. -/
theorem ofText_bounds_branches (read : ofText text = .ok pipeline) :
    (∀ layer ∈ Effect.layers 0 pipeline.effects, layer.depth ≤ 63) ∧
    ∀ options : CompileOptions, 63 ≤ options.maxBranchDepth →
      pipeline.validate options = pipeline.validate ⟨63⟩ ∧
      (∀ reason, pipeline.validate options ≠ .error (.validation reason)) ∧
      ∀ {σ ν : Type} (backend : Backend σ ν),
        (∀ instead, buildWithin backend instead 63 pipeline.effects = build backend pipeline.effects) ∧
        ∀ before reason after,
          (compile options backend pipeline.effects).run.run before = (.error (.validation reason), after) →
            ∃ call during, (backend call).run.run during = (.error (.validation reason), after) := by
  have bounded := depth_le_of_ofText read
  refine ⟨bounded, fun options raised => ?_⟩
  have shallow : ∀ layer ∈ Effect.layers 0 pipeline.effects, layer.depth ≤ options.maxBranchDepth :=
    fun layer inside => Nat.le_trans (bounded layer inside) raised
  have within : ∀ layer ∈ Effect.layers 0 pipeline.effects, layer.depth ≤ (⟨63⟩ : CompileOptions).maxBranchDepth := bounded
  refine ⟨validate_eq_of_shallow raised within, validate_ne_validation shallow, fun backend => ?_⟩
  constructor
  · intro instead
    have branches : ∀ layer ∈ Effect.layersUnder 0 pipeline.effects, layer.depth ≤ 0 + 63 := by
      simpa only [Nat.zero_add] using (List.forall_mem_cons.mp bounded).2
    exact buildWithin_eq_build backend instead _ branches
  · intro before reason after failed
    cases checked : VisualEffects.validate options pipeline.effects with
    | ok shape => exact exists_call_of_compile_error checked backend failed
    | error error =>
        rw [run_compile_of_rejected checked] at failed
        cases failed
        exact absurd checked (validate_ne_validation shallow reason)

/-- The bound is reached: an empty list can be read under 63 blends, and is refused there as empty. -/
theorem ofText_bounds_branches_of_deepest :
    let text := textUnderBlend^[63] "[]"
    let pipeline := underBlend^[63] ⟨[]⟩
    ofText text = .ok pipeline ∧ ⟨63, []⟩ ∈ Effect.layers 0 pipeline.effects ∧
      (∀ layer ∈ Effect.layers 0 pipeline.effects, layer.depth ≤ 63) ∧
      pipeline.validate ⟨62⟩ = .error (.validation "blend branches nested deeper than 62") ∧
      ∀ limit, 63 ≤ limit → pipeline.validate ⟨limit⟩ = .error .emptyPipeline := by
  intro text pipeline
  have spelled : (Value.list []).node.SpelledBy "[]" := by
    have line : (Value.list []).line = "[]" := by decide +kernel
    exact line ▸ Value.spelledBy_line (List.forall_mem_nil _)
  have branch : (⟨[]⟩ : Pipeline).IsBranch (Value.list []).node := ⟨_, rfl, rfl⟩
  have read : ofText text = .ok pipeline := by
    refine (ofText_eq_ok_iff_isBranch (spelledBy_iterate_underBlend spelled 63)).mpr ⟨?_, ?_⟩
    · exact (isBranch_iterate_underBlend 63 (by decide)).mpr branch
    · rw [Function.iterate_succ_apply']
      exact namesKinds_underBlend _
  have bounds := ofText_bounds_branches read
  refine ⟨read, layers_iterate_underBlend 0 63 ⟨[]⟩, bounds.1, by decide +kernel, fun limit raised => ?_⟩
  rw [(bounds.2 ⟨limit⟩ raised).1]
  decide +kernel

end Pipeline

end VisualEffects
