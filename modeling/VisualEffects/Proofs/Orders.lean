import Mathlib.Data.List.Perm.Basic
import VisualEffects.Proofs.Entries

namespace VisualEffects

/-! Members of effects and of colors may stand in any order.

Reading members is making one step for each, on a draft of what they fill, and two steps may change places: when they
are for the same place the second of them fails, in either order.
-/

open Json (Value Fault Fields Draft Layout)

/-- Steps of which any two may change places may be made in any order. -/
theorem foldlM_perm {σ α : Type} {step : σ → α → Option σ}
    (swap : ∀ state first second, (step state first).bind (step · second) = (step state second).bind (step · first))
    {items others : List α} (perm : items.Perm others) (state : σ) :
    items.foldlM step state = others.foldlM step state := by
  induction perm generalizing state with
  | nil => rfl
  | cons item _ ih =>
      rw [List.foldlM_cons, List.foldlM_cons]
      exact bind_congr ih
  | swap first second rest =>
      simp only [List.foldlM_cons, Option.bind_eq_bind, ← Option.bind_assoc]
      rw [swap]
  | trans _ _ first second => exact (first state).trans (second state)

namespace Json

theorem Draft.put_comm {φ : Type} [Fields φ] [DecidableEq φ] (draft : Draft φ) {field other : φ}
    (different : field ≠ other) (content : Fields.Content field) (content' : Fields.Content other) :
    (draft.put field content).put other content' = (draft.put other content').put field content := by
  funext third
  by_cases first : field = third
  · subst first
    rw [put_self, put_other _ _ different.symm, put_self]
  · by_cases second : other = third
    · subst second
      rw [put_self, put_other _ _ different, put_self]
    · rw [put_other _ _ second, put_other _ _ first, put_other _ _ first, put_other _ _ second]

namespace Layout

variable {φ : Type} [Fields φ] [DecidableEq φ]

/-- A draft after one more member. -/
def take? (layout : Layout φ) (read : (field : φ) → Value → Except Fault (Fields.Content field)) (draft : Draft φ)
    (member : String × Value) : Option (Draft φ) :=
  match layout.field? member.1 with
  | none => some draft
  | some field => if (draft field).isSome then none else (read field member.2).toOption.map (draft.put field)

variable {layout : Layout φ} {read : (field : φ) → Value → Except Fault (Fields.Content field)}

theorem toOption_readMembers_eq (members : List (String × Value)) (draft : Draft φ) :
    (layout.readMembers read members draft).toOption = members.foldlM (layout.take? read) draft := by
  induction members generalizing draft with
  | nil => rfl
  | cons member rest ih =>
      obtain ⟨name, value⟩ := member
      rw [readMembers, List.foldlM_cons, take?]
      cases layout.field? name with
      | none => exact ih draft
      | some field =>
          simp only [toOption_bind, ih, Draft.putOnce]
          cases (draft field).isSome with
          | true => rfl
          | false => simp only [Bool.false_eq_true, if_false, toOption_map]; rfl

theorem take?_swap (draft : Draft φ) (first second : String × Value) :
    (layout.take? read draft first).bind (layout.take? read · second) =
      (layout.take? read draft second).bind (layout.take? read · first) := by
  unfold take?
  cases layout.field? first.1 with
  | none => cases layout.field? second.1 <;> simp
  | some field =>
      cases layout.field? second.1 with
      | none => simp
      | some other =>
          -- The second of two members of one field fails, whichever it is; two fields are filled in either order.
          by_cases same : field = other
          · subst same
            dsimp only
            generalize (read field first.2).toOption = content, (read field second.2).toOption = content'
            cases (draft field).isSome <;> cases content <;> cases content' <;> simp
          · dsimp only
            have unmoved (content : Fields.Content field) : draft.put field content other = draft other :=
              Draft.put_other draft content same
            have kept (content : Fields.Content other) : draft.put other content field = draft field :=
              Draft.put_other draft content (Ne.symm same)
            generalize (read field first.2).toOption = content, (read other second.2).toOption = content'
            cases free : (draft field).isSome <;> cases free' : (draft other).isSome <;> cases content <;>
              cases content' <;> simp [unmoved, kept, free, free', Draft.put_comm draft same]

end Layout

end Json

namespace Effect

theorem toOption_readMembers_perm {kind : Kind} {members others : List (String × Value)} (perm : members.Perm others)
    (draft : Draft Field) : (readMembers kind members draft).toOption = (readMembers kind others draft).toOption := by
  rw [readMembers_eq, readMembers_eq, Layout.toOption_readMembers_eq, Layout.toOption_readMembers_eq]
  exact foldlM_perm Layout.take?_swap perm draft

/-- The kind that has been found after one more member. -/
def tagStep? (found : Option Kind) (member : String × Value) : Option (Option Kind) :=
  if member.1 = kindKey then
    if found.isSome then none else (readKind member.2).toOption.map some
  else some found

theorem toOption_kindAmong_eq (members : List (String × Value)) (found : Option Kind) :
    (kindAmong members found).toOption = (members.foldlM tagStep? found).bind id := by
  induction members generalizing found with
  | nil => cases found <;> rfl
  | cons member rest ih =>
      obtain ⟨name, value⟩ := member
      rw [kindAmong, List.foldlM_cons, tagStep?]
      split
      · cases found with
        | some earlier => rfl
        | none =>
            rw [Option.isSome_none, if_neg Bool.false_ne_true, if_neg Bool.false_ne_true, toOption_bind]
            simp only [ih]
            cases (readKind value).toOption <;> rfl
      · exact ih found

theorem tagStep?_swap (found : Option Kind) (first second : String × Value) :
    (tagStep? found first).bind (tagStep? · second) = (tagStep? found second).bind (tagStep? · first) := by
  unfold tagStep?
  by_cases tag : first.1 = kindKey <;> by_cases tag' : second.1 = kindKey <;> cases found <;>
    cases (readKind first.2).toOption <;> cases (readKind second.2).toOption <;> simp [tag, tag']

theorem toOption_kindAmong_perm {members others : List (String × Value)} (perm : members.Perm others)
    (found : Option Kind) : (kindAmong members found).toOption = (kindAmong others found).toOption := by
  rw [toOption_kindAmong_eq, toOption_kindAmong_eq, foldlM_perm tagStep?_swap perm]

theorem toOption_readValue_object (members : List (String × Value)) :
    (readValue (.object members)).toOption =
      (kindAmong members none).toOption.bind fun kind =>
        (readMembers kind members Draft.empty).toOption.bind fun draft => (ofDraft kind draft).toOption := by
  simp only [readValue, toOption_bind]

/-- The members of an effect may stand in any order. -/
theorem toOption_readValue_perm {members others : List (String × Value)} (perm : members.Perm others) :
    (readValue (.object members)).toOption = (readValue (.object others)).toOption := by
  simp only [toOption_readValue_object, toOption_kindAmong_perm perm, toOption_readMembers_perm perm]

end Effect

namespace Color

inductive Channel where
  | red
  | green
  | blue
  | alpha
deriving DecidableEq

def channelNamed? (name : String) : Option Channel :=
  if name = "r" then some .red
  else if name = "g" then some .green
  else if name = "b" then some .blue
  else if name = "a" then some .alpha
  else none

theorem channelOnce_eq (before : Option Float) (value : Value) :
    channelOnce before value = if before.isSome then none else value.readReal.toOption.map some := by
  unfold channelOnce
  cases before <;> cases value.readReal <;> rfl

namespace Channels

def get (channels : Channels) : Channel → Option Float
  | .red => channels.red
  | .green => channels.green
  | .blue => channels.blue
  | .alpha => channels.alpha

def put (channels : Channels) (channel : Channel) (content : Option Float) : Channels :=
  match channel with
  | .red => { channels with red := content }
  | .green => { channels with green := content }
  | .blue => { channels with blue := content }
  | .alpha => { channels with alpha := content }

variable (channels : Channels) (channel : Channel) (content : Option Float)

@[simp] theorem get_put_self : (channels.put channel content).get channel = content := by
  cases channel <;> rfl

theorem get_put_other {other : Channel} (different : channel ≠ other) :
    (channels.put channel content).get other = channels.get other := by
  cases channel <;> cases other <;> first | rfl | exact absurd rfl different

theorem put_comm {other : Channel} (different : channel ≠ other) (content' : Option Float) :
    (channels.put channel content).put other content' = (channels.put other content').put channel content := by
  cases channel <;> cases other <;> first | rfl | exact absurd rfl different

/-- The channels after one more member. -/
def take? (member : String × Value) : Option Channels :=
  match channelNamed? member.1 with
  | none => some channels
  | some channel => (channelOnce (channels.get channel) member.2).map (channels.put channel)

theorem take?_swap (first second : String × Value) :
    (channels.take? first).bind (Channels.take? · second) = (channels.take? second).bind (Channels.take? · first) := by
  unfold take?
  cases channelNamed? first.1 with
  | none => cases channelNamed? second.1 <;> simp
  | some channel =>
      cases channelNamed? second.1 with
      | none => simp
      | some other =>
          by_cases same : channel = other
          · subst same
            simp only [channelOnce_eq]
            generalize first.2.readReal.toOption = content, second.2.readReal.toOption = content'
            cases channels.get channel <;> cases content <;> cases content' <;> simp
          · simp only [Option.bind_map, Function.comp_def, get_put_other _ _ _ same, get_put_other _ _ _ (Ne.symm same)]
            cases channelOnce (channels.get channel) first.2 <;> cases channelOnce (channels.get other) second.2 <;>
              simp [put_comm _ _ _ same]

end Channels

theorem channels?_eq (members : List (String × Value)) (found : Channels) :
    channels? members found = members.foldlM Channels.take? found := by
  induction members generalizing found with
  | nil => rfl
  | cons member rest ih =>
      obtain ⟨name, value⟩ := member
      have next {before : Option Float} {put : Option Float → Channels} :
          (channelOnce before value >>= fun content => channels? rest (put content)) =
            ((channelOnce before value).map put >>= rest.foldlM Channels.take?) := by
        cases channelOnce before value with
        | none => rfl
        | some content => exact ih (put content)
      rw [channels?, List.foldlM_cons, Channels.take?, channelNamed?]
      split
      · exact next
      · split
        · exact next
        · split
          · exact next
          · split
            · exact next
            · exact ih found

/-- The channels of a color may stand in any order. -/
theorem readValue_object_perm {members others : List (String × Value)} (perm : members.Perm others) :
    readValue (.object members) = readValue (.object others) := by
  rw [readValue, readValue, ofMembers?, ofMembers?, channels?_eq, channels?_eq, foldlM_perm Channels.take?_swap perm]

end Color

end VisualEffects
