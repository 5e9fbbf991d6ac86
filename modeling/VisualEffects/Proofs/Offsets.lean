import Mathlib.Algebra.Ring.Nat
import VisualEffects.Proofs.Notations

namespace VisualEffects

/-! Which texts are a color, and that reading one never cuts a character in two.

A text is read by its digits, which are counted and parted by their bytes.  Only digits in ASCII are parted, so every
byte offset is the place of a character.
-/

namespace Text

/-- A text parted at a byte offset.  It has no parts where the offset is inside a character or behind the text. -/
def partedAt? : Nat → List Char → Option (List Char × List Char)
  | 0, cs => some ([], cs)
  | _ + 1, [] => none
  | offset + 1, c :: rest =>
      if c.utf8Size ≤ offset + 1 then (partedAt? (offset + 1 - c.utf8Size) rest).map (Prod.map (c :: ·) id) else none

def byteSize (cs : List Char) : Nat := (cs.map Char.utf8Size).sum

theorem utf8Size_of_ascii {c : Char} (ascii : c.toNat < 0x80) : c.utf8Size = 1 :=
  Char.utf8Size_eq_one_iff.mpr (UInt32.le_iff_toNat_le.mpr (Nat.le_of_lt_succ ascii))

variable {cs : List Char} {offset : Nat}

theorem partedAt?_of_ascii (ascii : ∀ c ∈ cs, c.toNat < 0x80) (within : offset ≤ cs.length) :
    partedAt? offset cs = some (cs.take offset, cs.drop offset) := by
  induction cs generalizing offset with
  | nil =>
      obtain rfl := Nat.le_zero.mp within
      rfl
  | cons c rest ih =>
      cases offset with
      | zero => rfl
      | succ offset =>
          simp only [partedAt?, utf8Size_of_ascii (ascii c List.mem_cons_self)]
          rw [if_pos (Nat.le_add_left 1 offset), Nat.add_sub_cancel,
            ih (fun d member => ascii d (List.mem_cons_of_mem c member)) (Nat.le_of_succ_le_succ within)]
          rfl

theorem byteSize_of_ascii (ascii : ∀ c ∈ cs, c.toNat < 0x80) : byteSize cs = cs.length := by
  induction cs with
  | nil => rfl
  | cons c rest ih =>
      have tail := ih fun d member => ascii d (List.mem_cons_of_mem c member)
      rw [byteSize] at tail
      rw [byteSize, List.map_cons, List.sum_cons, tail, utf8Size_of_ascii (ascii c List.mem_cons_self),
        List.length_cons, Nat.add_comm]

end Text

namespace Color

/-- The byte that two bytes of a text spell.  There is no answer where the text cannot be cut around them. -/
def byteAt? (digits : List Char) (offset : Nat) : ExceptT HexFault Option UInt8 :=
  ExceptT.mk <| ((Text.partedAt? offset digits).bind fun parts => Text.partedAt? 2 parts.2).map fun parts =>
    match parts.1 with
    | [first, second] => byteOfPair first second
    | pair => .error (.wrongByte pair)

/-- A color read by cutting its digits at byte offsets. -/
def ofDigitBytes? (digits : List Char) : ExceptT HexFault Option Color :=
  if !digits.all (·.toNat < 0x80) then throw .notAscii
  else match Text.byteSize digits with
    | 6 => do return solid (← byteAt? digits 0) (← byteAt? digits 2) (← byteAt? digits 4)
    | 8 => do return ⟨← byteAt? digits 0, ← byteAt? digits 2, ← byteAt? digits 4, ← byteAt? digits 6⟩
    | _ => throw .wrongLength

variable {digits : List Char}

theorem byteAt?_of_ascii {offset : Nat} {first second : Char} {rest : List Char}
    (ascii : ∀ c ∈ digits, c.toNat < 0x80) (parted : digits.drop offset = first :: second :: rest) :
    byteAt? digits offset = ExceptT.mk (some (byteOfPair first second)) := by
  have length := congrArg List.length parted
  rw [List.length_drop, List.length_cons, List.length_cons] at length
  have behind : Text.partedAt? offset digits = some (digits.take offset, first :: second :: rest) := by
    rw [Text.partedAt?_of_ascii ascii (by omega), parted]
  have front : Text.partedAt? 2 (first :: second :: rest) = some ([first, second], rest) :=
    Text.partedAt?_of_ascii (fun c member => ascii c (List.mem_of_mem_drop (parted ▸ member))) (by simp)
  rw [byteAt?, behind, Option.bind_some, front, Option.map_some]

/-! What has an answer, or a fault, goes on with what has one. -/

theorem pure_eq_mk {α ε : Type} (a : α) : (pure a : ExceptT ε Option α) = ExceptT.mk (some (.ok a)) := rfl

theorem mk_bind_mk {α β ε : Type} (x : Except ε α) (f : α → Except ε β) :
    (ExceptT.mk (some x) >>= fun a => ExceptT.mk (some (f a))) = (ExceptT.mk (some (x >>= f)) : ExceptT ε Option β) := by
  cases x <;> rfl

/-- Digits can always be cut at the byte offsets of their pairs, so this is the same reading. -/
theorem run_ofDigitBytes? : (ofDigitBytes? digits).run = some (ofDigits digits) := by
  unfold ofDigitBytes? ofDigits
  by_cases beyond : (!digits.all (·.toNat < 0x80)) = true
  · rw [if_pos beyond, if_pos beyond]
    rfl
  · have ascii : ∀ c ∈ digits, c.toNat < 0x80 := by simpa using beyond
    rw [if_neg beyond, if_neg beyond, Text.byteSize_of_ascii ascii]
    split
    · rename_i six
      match digits, six with
      | [_, _, _, _, _, _], _ =>
          rw [byteAt?_of_ascii ascii rfl, byteAt?_of_ascii ascii rfl, byteAt?_of_ascii ascii rfl]
          simp only [pure_eq_mk, mk_bind_mk]
          rfl
    · rename_i eight
      match digits, eight with
      | [_, _, _, _, _, _, _, _], _ =>
          rw [byteAt?_of_ascii ascii rfl, byteAt?_of_ascii ascii rfl, byteAt?_of_ascii ascii rfl,
            byteAt?_of_ascii ascii rfl]
          simp only [pure_eq_mk, mk_bind_mk]
          rfl
    · rename_i notSix notEight
      split
      · exact absurd rfl notSix
      · exact absurd rfl notEight
      · rfl

/-- Reading a text by its digits accepts the notations of a color, and besides them only those in which a plus sign
stands for a zero at the start of a byte.  Every other text is refused, and no text is cut inside a character. -/
theorem ofHex_iff_notates (text : String) :
    (∀ color, ofHex text = .ok color ↔ Notates (unsigned (digitsOf text.toList)) color) ∧
    (∀ color, ofHex text = .ok color ∧ '+' ∉ digitsOf text.toList ↔ Notates (digitsOf text.toList) color) ∧
    (∀ color, Notates (digitsOf text.toList) color →
      ((digitsOf text.toList).length = 6 ∨ (digitsOf text.toList).length = 8) ∧
        ∀ c ∈ digitsOf text.toList, (Text.Hex.digit? c).isSome) ∧
    ((∃ color, ofHex text = .ok color) ∨
      (∀ color, ¬ Notates (unsigned (digitsOf text.toList)) color) ∧ ∃ fault, ofHex text = .error fault) ∧
    (ofDigitBytes? (digitsOf text.toList)).run = some (ofHex text) := by
  refine ⟨fun _ => ofDigits_eq_ok, fun color => ⟨?_, ?_⟩, fun _ notates => ⟨notates.length, notates.isSome_digit⟩, ?_,
    run_ofDigitBytes?⟩
  · rintro ⟨read, noSign⟩
    rw [← unsigned_eq_self noSign]
    exact ofDigits_eq_ok.mp read
  · intro notates
    exact ⟨ofDigits_of_notates notates, not_mem_of_notates notates⟩
  · cases read : ofHex text with
    | ok color => exact .inl ⟨color, rfl⟩
    | error fault =>
        refine .inr ⟨fun color notates => ?_, fault, rfl⟩
        cases read.symm.trans (ofDigits_eq_ok.mpr notates)

/-- A sign in front of the last digit of a byte is accepted, though it is no digit. -/
theorem not_notates_of_signs :
    ofHex "#+1+2+3" = .ok (solid 1 2 3) ∧ ¬ Notates (digitsOf "#+1+2+3".toList) (solid 1 2 3) ∧
      Text.Hex.digit? '+' = none := by
  exact ⟨rfl, by decide, rfl⟩

end Color

end VisualEffects
