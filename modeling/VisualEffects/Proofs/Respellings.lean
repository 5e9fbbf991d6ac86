import Mathlib.Data.List.Forall2
import VisualEffects.Proofs.Offsets

namespace VisualEffects.Color

/-! A color is read from every respelling of what is written of it.

Letters may be of either case, the `#` may be missing, and so may the alpha of an opaque color; blanks may stand around.
-/

/-- The same characters, with letters in any case. -/
def Recased : List Char → List Char → Prop := List.Forall₂ fun c d => d = c ∨ d = c.toUpper

/-- Whether a text differs from what is written of a color only in the case of its letters, in that the `#` is missing,
in that the alpha is missing though the color is opaque, or in blanks around it. -/
inductive Respelled (color : Color) : String → Prop
  | intro {before mark digits after : List Char} (beforeBlank : ∀ c ∈ before, Text.isBlank c = true)
      (marked : mark = ['#'] ∨ mark = [])
      (recased : Recased color.hexDigits digits ∨ color.alpha = 255 ∧ Recased (color.hexDigits.take 6) digits)
      (afterBlank : ∀ c ∈ after, Text.isBlank c = true) :
      Respelled color (String.ofList (before ++ (mark ++ digits) ++ after))

/-- A text written anew from the color it is read as. -/
def rewritten (text : String) : Except HexFault String := (ofHex text).map toHex

theorem lower_of_recased {written digits : List Char} (recased : Recased written digits)
    (lower : ∀ c ∈ written, ∃ n < 16, c = Nat.digitChar n) : digits.map Char.toLower = written := by
  induction recased with
  | nil => rfl
  | @cons c d written digits same _ ih =>
      obtain ⟨n, below, rfl⟩ := lower c List.mem_cons_self
      have every : ∀ m ∈ List.range 16, (Nat.digitChar m).toLower = Nat.digitChar m ∧
          (Nat.digitChar m).toUpper.toLower = Nat.digitChar m := by
        decide
      obtain ⟨unchanged, back⟩ := every n (List.mem_range.mpr below)
      rw [List.map_cons, ih fun c member => lower c (List.mem_cons_of_mem _ member)]
      rcases same with rfl | rfl
      · rw [unchanged]
      · rw [back]

theorem notates_of_recased {color : Color} {digits : List Char}
    (recased : Recased color.hexDigits digits ∨ color.alpha = 255 ∧ Recased (color.hexDigits.take 6) digits) :
    Notates digits color := by
  rcases recased with whole | ⟨isOpaque, short⟩
  · exact .inl (lower_of_recased whole fun c member => exists_of_mem_hexDigits member)
  · exact .inr ⟨isOpaque, lower_of_recased short fun c member => exists_of_mem_hexDigits (List.mem_of_mem_take member)⟩

theorem digitsOf_surrounded {before mark digits after : List Char} (beforeBlank : ∀ c ∈ before, Text.isBlank c = true)
    (marked : mark = ['#'] ∨ mark = []) (afterBlank : ∀ c ∈ after, Text.isBlank c = true)
    (hex : ∀ c ∈ digits, (Text.Hex.digit? c).isSome) (nonempty : digits ≠ []) :
    digitsOf (before ++ (mark ++ digits) ++ after) = digits := by
  have solid : ∀ c ∈ mark ++ digits, Text.isBlank c = false := by
    intro c member
    rcases List.mem_append.mp member with ofMark | ofDigits
    · rcases marked with rfl | rfl
      · rw [List.mem_singleton.mp ofMark]
        decide
      · cases ofMark
    · exact (Text.Hex.solid_of_digit (hex c ofDigits)).2.2.2
  have trimmed := Text.trimmed_surrounded beforeBlank afterBlank
    (fun c first => solid c (List.mem_of_head? first)) (fun c last => solid c (List.mem_of_getLast? last))
    (List.append_ne_nil_of_right_ne_nil mark nonempty)
  rw [digitsOf, trimmed]
  rcases marked with rfl | rfl
  · rfl
  · cases digits with
    | nil => exact absurd rfl nonempty
    | cons c rest =>
        have noMark := (Text.Hex.solid_of_digit (hex c List.mem_cons_self)).2.1
        rw [List.nil_append]
        split
        · rename_i same
          cases same
          exact absurd rfl noMark
        · rfl

theorem ofHex_of_respelled {color : Color} {text : String} (respelled : Respelled color text) :
    ofHex text = .ok color := by
  cases respelled with
  | @intro before mark digits after beforeBlank marked recased afterBlank =>
      have notates := notates_of_recased recased
      have nonempty : digits ≠ [] := by
        rintro rfl
        rcases notates.length with none | none <;> cases none
      rw [ofHex, String.toList_ofList, digitsOf_surrounded beforeBlank marked afterBlank notates.isSome_digit nonempty]
      exact ofDigits_of_notates notates

theorem toHex_injective : Function.Injective toHex := by
  intro color other same
  have read := ofHex_toHex color
  rw [same, ofHex_toHex other] at read
  exact (Except.ok.inj read).symm

theorem rewritten_bind_rewritten (text : String) : (rewritten text >>= rewritten) = rewritten text := by
  cases read : ofHex text with
  | error fault =>
      rw [rewritten, read]
      rfl
  | ok color =>
      have once : rewritten text = .ok color.toHex := by rw [rewritten, read]; rfl
      have again : rewritten color.toHex = .ok color.toHex := by rw [rewritten, ofHex_toHex]; rfl
      rw [once, bind_eq_ok]
      exact ⟨_, rfl, again⟩

/-- Every respelling of a color is read as that color, so different colors are written differently, and a text that was
written anew is not changed by writing it anew. -/
theorem ofHex_of_respellings :
    (∀ color text, Respelled color text → ofHex text = .ok color) ∧ Function.Injective toHex ∧
      ∀ text, (rewritten text >>= rewritten) = rewritten text :=
  ⟨fun _ _ => ofHex_of_respelled, toHex_injective, rewritten_bind_rewritten⟩

/-- An opaque color among blanks, in mixed case, without the mark and the alpha. -/
theorem ofHex_of_respellings_of_mixed_case :
    Respelled (solid 0x12 0xab 0xef) "\u3000\t12aBEf " ∧ ofHex "\u3000\t12aBEf " = .ok (solid 0x12 0xab 0xef) := by
  have respelled : Respelled (solid 0x12 0xab 0xef)
      (String.ofList (['\u3000', '\t'] ++ ([] ++ ['1', '2', 'a', 'B', 'E', 'f']) ++ [' '])) := by
    refine .intro (List.all_eq_true.mp rfl) (.inr rfl) (.inr ⟨rfl, ?_⟩) (List.all_eq_true.mp rfl)
    exact .cons (.inl rfl) (.cons (.inl rfl) (.cons (.inl rfl) (.cons (.inr rfl) (.cons (.inr rfl)
      (.cons (.inl rfl) .nil)))))
  exact ⟨respelled, ofHex_of_respellings.1 _ _ respelled⟩

end VisualEffects.Color
