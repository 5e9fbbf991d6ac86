import VisualEffects.Proofs.Colors
import VisualEffects.Proofs.Orders
import VisualEffects.Proofs.Reading

namespace VisualEffects

/-! Which values are read as a color, and as which.

A text is a color by its digits alone.  An object is one by its channels: each of them stands in it once, all are
numbers, and only the last may be left out.  A list is one by its items, and an object of the same channels is the same
color.
-/

open Json (Value Denotes Document)

/-- The values of the members with a name, in their order. -/
def Json.Value.named (name : String) (members : List (String × Value)) : List Value :=
  (members.filter (·.1 = name)).map Prod.snd

namespace Color

namespace Channel

def name : Channel → String
  | red => "r"
  | green => "g"
  | blue => "b"
  | alpha => "a"

theorem channelNamed?_eq_some {name : String} {channel : Channel} :
    channelNamed? name = some channel ↔ name = channel.name := by
  unfold channelNamed?
  constructor
  · intro found
    split at found
    · cases found; assumption
    · split at found
      · cases found; assumption
      · split at found
        · cases found; assumption
        · split at found
          · cases found; assumption
          · cases found
  · rintro rfl
    cases channel <;> rfl

end Channel

namespace Channels

theorem ext_get {channels others : Channels} (same : ∀ channel, channels.get channel = others.get channel) :
    channels = others := by
  obtain ⟨red, green, blue, alpha⟩ := channels
  obtain ⟨red', green', blue', alpha'⟩ := others
  have := same .red
  have := same .green
  have := same .blue
  have := same .alpha
  simp_all [get]

/-- Whether a channel is found among values after what was found before: there are none, or there is one, a number, and
there was none before. -/
def Found (before : Option Float) (values : List Value) (after : Option Float) : Prop :=
  (values = [] ∧ after = before) ∨ (before = none ∧ ∃ n, values = [.number n] ∧ after = some n.toFloat)

theorem found_cons {before after : Option Float} {value : Value} {rest : List Value} :
    Found before (value :: rest) after ↔
      ∃ content, channelOnce before value = some content ∧ Found content rest after := by
  rw [channelOnce_eq]
  cases before with
  | some x => simp [Found]
  | none =>
      cases value with
      | number n =>
          constructor
          · rintro (⟨⟨⟩, _⟩ | ⟨_, m, same, rfl⟩)
            cases same
            exact ⟨some n.toFloat, rfl, .inl ⟨rfl, rfl⟩⟩
          · rintro ⟨content, once, found⟩
            cases once
            rcases found with ⟨rfl, rfl⟩ | ⟨⟨⟩, _⟩
            exact .inr ⟨rfl, n, rfl, rfl⟩
      | _ => simp [Found, Value.readReal, Except.toOption]

/-- Reading members finds each channel among the values of its own name. -/
theorem channels?_eq_some {members : List (String × Value)} {before after : Channels} :
    channels? members before = some after ↔
      ∀ channel : Channel, Found (before.get channel) (Value.named channel.name members) (after.get channel) := by
  rw [channels?_eq]
  induction members generalizing before with
  | nil =>
      simp only [List.foldlM_nil, Option.pure_def, Option.some.injEq]
      constructor
      · rintro rfl channel
        exact .inl ⟨rfl, rfl⟩
      · intro found
        refine ext_get fun channel => ?_
        rcases found channel with ⟨_, same⟩ | ⟨_, _, ⟨⟩, _⟩
        exact same.symm
  | cons member rest ih =>
      obtain ⟨name, value⟩ := member
      rw [List.foldlM_cons, Option.bind_eq_bind, Option.bind_eq_some_iff, take?]
      simp only [ih]
      cases known : channelNamed? name with
      | none =>
          have other (channel : Channel) :
              Value.named channel.name ((name, value) :: rest) = Value.named channel.name rest := by
            have different : name ≠ channel.name := by
              intro same
              rw [Channel.channelNamed?_eq_some.mpr same] at known
              cases known
            simp [Value.named, different]
          simp [other]
      | some channel =>
          obtain rfl := Channel.channelNamed?_eq_some.mp known
          have here :
              Value.named channel.name ((channel.name, value) :: rest) = value :: Value.named channel.name rest := by
            simp [Value.named]
          have other {third : Channel} (different : channel ≠ third) :
              Value.named third.name ((channel.name, value) :: rest) = Value.named third.name rest := by
            have names : channel.name ≠ third.name := by
              cases channel <;> cases third <;> first | exact absurd rfl different | simp [Channel.name]
            simp [Value.named, names]
          simp only [Option.map_eq_some_iff]
          constructor
          · rintro ⟨_, ⟨content, once, rfl⟩, found⟩ third
            by_cases same : channel = third
            · subst same
              rw [here, found_cons]
              exact ⟨content, once, by simpa using found channel⟩
            · rw [other same, ← get_put_other before channel content same]
              exact found third
          · intro found
            have first := found channel
            rw [here, found_cons] at first
            obtain ⟨content, once, first⟩ := first
            refine ⟨_, ⟨content, once, rfl⟩, fun third => ?_⟩
            by_cases same : channel = third
            · subst same
              simpa using first
            · rw [get_put_other before channel content same, ← other same]
              exact found third

end Channels

/-- Whether a value spells a color. -/
inductive Spells : Value → Color → Prop
  | digits {text : String} {color : Color} (read : ofHex text = .ok color) : Spells (.text text) color
  | channels {members : List (String × Value)} {red green blue : Json.Number}
      (r : Value.named "r" members = [.number red]) (g : Value.named "g" members = [.number green])
      (b : Value.named "b" members = [.number blue]) (noAlpha : Value.named "a" members = []) :
      Spells (.object members) (ofUnit red.toFloat green.toFloat blue.toFloat 1)
  | channelsWithAlpha {members : List (String × Value)} {red green blue alpha : Json.Number}
      (r : Value.named "r" members = [.number red]) (g : Value.named "g" members = [.number green])
      (b : Value.named "b" members = [.number blue]) (a : Value.named "a" members = [.number alpha]) :
      Spells (.object members) (ofUnit red.toFloat green.toFloat blue.toFloat alpha.toFloat)
  | list (red green blue : Json.Number) :
      Spells (.list [.number red, .number green, .number blue]) (ofUnit red.toFloat green.toFloat blue.toFloat 1)
  | listWithAlpha (red green blue alpha : Json.Number) :
      Spells (.list [.number red, .number green, .number blue, .number alpha])
        (ofUnit red.toFloat green.toFloat blue.toFloat alpha.toFloat)

theorem ofMembers?_eq_some {members : List (String × Value)} {color : Color} :
    ofMembers? members = some color ↔ Spells (.object members) color := by
  have found (after : Channels) : channels? members {} = some after ↔
      Channels.Found none (Value.named "r" members) after.red ∧
        Channels.Found none (Value.named "g" members) after.green ∧
        Channels.Found none (Value.named "b" members) after.blue ∧
        Channels.Found none (Value.named "a" members) after.alpha := by
    rw [Channels.channels?_eq_some]
    constructor
    · intro each
      exact ⟨each .red, each .green, each .blue, each .alpha⟩
    · rintro ⟨red, green, blue, alpha⟩ (_ | _ | _ | _)
      · exact red
      · exact green
      · exact blue
      · exact alpha
  simp only [ofMembers?, Option.bind_eq_bind, Option.bind_eq_some_iff, Option.pure_def, Option.some.injEq, found]
  constructor
  · rintro ⟨⟨_, _, _, _⟩, ⟨r, g, b, a⟩, red, rfl, green, rfl, blue, rfl, rfl⟩
    rcases r with ⟨_, ⟨⟩⟩ | ⟨_, red, r, ⟨⟩⟩
    rcases g with ⟨_, ⟨⟩⟩ | ⟨_, green, g, ⟨⟩⟩
    rcases b with ⟨_, ⟨⟩⟩ | ⟨_, blue, b, ⟨⟩⟩
    rcases a with ⟨noAlpha, ⟨⟩⟩ | ⟨_, alpha, a, ⟨⟩⟩
    · exact .channels r g b noAlpha
    · exact .channelsWithAlpha r g b a
  · intro spelled
    cases spelled with
    | channels r g b noAlpha =>
        exact ⟨⟨some _, some _, some _, none⟩, ⟨.inr ⟨rfl, _, r, rfl⟩, .inr ⟨rfl, _, g, rfl⟩, .inr ⟨rfl, _, b, rfl⟩,
          .inl ⟨noAlpha, rfl⟩⟩, _, rfl, _, rfl, _, rfl, rfl⟩
    | channelsWithAlpha r g b a =>
        exact ⟨⟨some _, some _, some _, some _⟩, ⟨.inr ⟨rfl, _, r, rfl⟩, .inr ⟨rfl, _, g, rfl⟩, .inr ⟨rfl, _, b, rfl⟩,
          .inr ⟨rfl, _, a, rfl⟩⟩, _, rfl, _, rfl, _, rfl, rfl⟩

theorem numbers?_eq_some {items : List Value} {numbers : List Float} :
    numbers? items = some numbers ↔
      ∃ found : List Json.Number, items = found.map .number ∧ numbers = found.map (·.toFloat) := by
  induction items generalizing numbers with
  | nil =>
      constructor
      · rintro ⟨⟩
        exact ⟨[], rfl, rfl⟩
      · rintro ⟨found, same, rfl⟩
        rw [List.map_eq_nil_iff.mp same.symm]
        rfl
  | cons item rest ih =>
      cases item with
      | number n =>
          simp only [numbers?, Option.map_eq_some_iff, ih]
          constructor
          · rintro ⟨_, ⟨found, rfl, rfl⟩, rfl⟩
            exact ⟨n :: found, rfl, rfl⟩
          · rintro ⟨_ | ⟨first, others⟩, same, rfl⟩
            · cases same
            · cases same
              exact ⟨_, ⟨others, rfl, rfl⟩, rfl⟩
      | _ =>
          constructor
          · rintro ⟨⟩
          · rintro ⟨_ | ⟨first, others⟩, same, _⟩ <;> cases same

theorem readValue_eq_ok {value : Value} {color : Color} : readValue value = .ok color ↔ Spells value color := by
  cases value with
  | text text =>
      rw [readValue, mapError_eq_ok]
      constructor
      · exact .digits
      · rintro ⟨read⟩
        exact read
  | object members =>
      rw [← ofMembers?_eq_some, readValue]
      cases ofMembers? members <;> simp
  | list items =>
      rw [readValue]
      constructor
      · intro read
        cases numbers : numbers? items with
        | none => simp [numbers] at read
        | some found =>
            rw [numbers] at read
            obtain ⟨found, rfl, rfl⟩ := numbers?_eq_some.mp numbers
            rcases found with _ | ⟨red, _ | ⟨green, _ | ⟨blue, _ | ⟨alpha, _ | _⟩⟩⟩⟩ <;> cases read
            · exact .list red green blue
            · exact .listWithAlpha red green blue alpha
      · intro spelled
        cases spelled <;> rfl
  | _ =>
      constructor <;> rintro ⟨⟩

/-- Members and a list of their channels are the same color, or neither is a color. -/
theorem readValue_object_iff_list {members : List (String × Value)} {color : Color} :
    readValue (.object members) = .ok color ↔
      ∃ r g b, Value.named "r" members = [r] ∧ Value.named "g" members = [g] ∧ Value.named "b" members = [b] ∧
        ((Value.named "a" members = [] ∧ readValue (.list [r, g, b]) = .ok color) ∨
          ∃ a, Value.named "a" members = [a] ∧ readValue (.list [r, g, b, a]) = .ok color) := by
  simp only [readValue_eq_ok]
  constructor
  · intro spelled
    cases spelled with
    | channels r g b noAlpha => exact ⟨_, _, _, r, g, b, .inl ⟨noAlpha, .list ..⟩⟩
    | channelsWithAlpha r g b a => exact ⟨_, _, _, r, g, b, .inr ⟨_, a, .listWithAlpha ..⟩⟩
  · rintro ⟨_, _, _, r, g, b, ⟨noAlpha, spelled⟩ | ⟨_, a, spelled⟩⟩
    · cases spelled
      exact .channels r g b noAlpha
    · cases spelled
      exact .channelsWithAlpha r g b a

theorem ofText_eq_ok {text : String} {color : Color} :
    (Document.ofText text).read readNode = .ok color ↔
      ∃ value, Denotes text value ∧ value.nesting ≤ Document.depthLimit ∧ Spells value color := by
  simp only [← readValue_eq_ok, ← and_assoc, ← Document.read_value_eq_ok, Document.read_eq_ok, readNode, bind_eq_ok]
  constructor
  · rintro ⟨⟨value, whole, read⟩, complete⟩
    exact ⟨value, ⟨whole, complete⟩, read⟩
  · rintro ⟨value, ⟨whole, complete⟩, read⟩
    exact ⟨⟨value, whole, read⟩, complete⟩

/-- Which values are read as which color, which texts are, and that a color is read from what is written of it. -/
theorem readValue_iff_spells :
    (∀ value color, readValue value = .ok color ↔ Spells value color) ∧
    (∀ text, readValue (.text text) = (ofHex text).mapError fun fault => .stated fault.message) ∧
    (∀ members color, readValue (.object members) = .ok color ↔
      ∃ r g b, Value.named "r" members = [r] ∧ Value.named "g" members = [g] ∧ Value.named "b" members = [b] ∧
        ((Value.named "a" members = [] ∧ readValue (.list [r, g, b]) = .ok color) ∨
          ∃ a, Value.named "a" members = [a] ∧ readValue (.list [r, g, b, a]) = .ok color)) ∧
    (∀ text color, (Document.ofText text).read readNode = .ok color ↔
      ∃ value, Denotes text value ∧ value.nesting ≤ Document.depthLimit ∧ Spells value color) ∧
    (∀ color : Color, readValue color.toValue = .ok color ∧
      (Document.ofText color.toValue.line).read readNode = .ok color) := by
  refine ⟨fun _ _ => readValue_eq_ok, fun _ => rfl, fun _ _ => readValue_object_iff_list, fun _ _ => ofText_eq_ok,
    fun color => ⟨readValue_toValue color, ?_⟩⟩
  have plain : ∀ n ∈ color.toValue.numbers, n.IsWritten := List.forall_mem_nil _
  refine ofText_eq_ok.mpr ⟨color.toValue, ?_, Nat.zero_le _, readValue_eq_ok.mp (readValue_toValue color)⟩
  exact ⟨_, Value.spelledBy_line plain, 0, rfl⟩

example : (readValue (.object [("r", .natural 0), ("g", .natural 0), ("b", .natural 0), ("r", .natural 0)])).toOption =
    none := rfl

end Color

end VisualEffects
