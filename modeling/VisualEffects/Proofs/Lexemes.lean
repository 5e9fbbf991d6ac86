import VisualEffects.Json.Read
import VisualEffects.Proofs.Numerals

namespace VisualEffects.Json

/-! The lexemes of a text.

A token is cut from a text by the first character that is not blank.  For each kind of token this says which texts start
with it, and what follows it there.
-/

/-- A text without the blanks at its start. -/
def unblanked (cs : List Char) : List Char := cs.dropWhile Token.isBlank

/-- A text literal, after blanks, that can be passed over; `rest` follows it. -/
def Literal (scanned : Scanned String) (cs rest : List Char) : Prop :=
  ∃ inner, unblanked cs = '"' :: inner ∧ TextLiteral.next inner = (scanned, rest) ∧ scanned.passed = .ok ()

namespace TextLiteral

theorem scan_plain {c : Char} (quote : c ≠ '"') (backslash : c ≠ '\\') (printed : ¬ c.toNat < 0x20)
    (rest : List Char) : scan (c :: rest) = (.char c :: (scan rest).1, (scan rest).2) := by
  rw [scan]
  · exact if_neg printed
  · exact fun same => quote same
  all_goals intros; contradiction

/-- A literal that can be read has its closing quote. -/
theorem fault?_of_read {pieces : List Piece} {ending : Ending} {cs : List Char} (found : read pieces ending = .ok cs) :
    ending.fault? = none := by
  fun_induction read pieces ending generalizing cs with
  | case1 ending closed => exact closed
  | case3 c rest ending ih => exact (map_eq_ok.mp found).elim fun _ read => ih read.1
  | case6 high ending _ _ ih => exact (map_eq_ok.mp found).elim fun _ read => ih read.1
  | case9 high c rest ending _ _ ih => exact (map_eq_ok.mp found).elim fun _ read => ih read.1
  | case11 high low rest ending _ _ ih => exact (map_eq_ok.mp found).elim fun _ read => ih read.1
  | case12 high low rest ending _ _ _ ih => exact (map_eq_ok.mp found).elim fun _ read => ih read.1
  | _ => cases found

theorem passed_of_read {cs : List Char} {text : String} (found : (next cs).1.value = .ok text) :
    (next cs).1.passed = .ok () := by
  have closed : (scan cs).2.fault? = none := by
    obtain ⟨letters, read, _⟩ := map_eq_ok.mp found
    exact fault?_of_read read
  simp only [next, closed]

end TextLiteral

namespace Token

/-- The character that a token is, if it is always the same one. -/
def mark? : Token → Option Char
  | openList => some '['
  | closeList => some ']'
  | openObject => some '{'
  | closeObject => some '}'
  | colon => some ':'
  | comma => some ','
  | _ => none

/-- What a word in the place of a token is cut into. -/
inductive Word (token : Token) (letters cs : List Char) : Token × List Char → Prop
  | whole (parted : cs = letters ++ rest) : Word token letters cs (token, rest)
  | broken : Word token letters cs (.brokenWord fault, [])

/-- What a text is cut into, by its first character. -/
inductive Lexeme : Char → List Char → Token × List Char → Prop
  | mark (known : token.mark? = some c) : Lexeme c cs (token, cs)
  | text : Lexeme '"' cs (.text (TextLiteral.next cs).1, (TextLiteral.next cs).2)
  | null (word : Word .null ['u', 'l', 'l'] cs found) : Lexeme 'n' cs found
  | true (word : Word (.bool true) ['r', 'u', 'e'] cs found) : Lexeme 't' cs found
  | false (word : Word (.bool false) ['a', 'l', 's', 'e'] cs found) : Lexeme 'f' cs found
  | number (read : Numeral.next (c :: cs) = .ok (found, rest)) : Lexeme c cs (.number (.whole found.value), rest)
  | brokenNumber : Lexeme c cs (.number ⟨.error fault, .error other⟩, [])
  | stray : Lexeme c cs (.stray, cs)

theorem word_word (token : Token) (letters cs : List Char) : Word token letters cs (word token letters cs) := by
  induction letters generalizing cs with
  | nil => exact .whole rfl
  | cons letter letters ih =>
      cases cs with
      | nil => exact .broken
      | cons c cs =>
          rw [word]
          split
          · next same =>
              generalize found : word token letters cs = result at *
              cases found ▸ ih cs with
              | whole parted => exact .whole (by rw [same, parted, List.cons_append])
              | broken => exact .broken
          · exact .broken

theorem lexeme_starting (c : Char) (cs : List Char) : Lexeme c cs (starting c cs) := by
  unfold starting
  iterate 6
    refine iteInduction (fun same => same ▸ .mark rfl) fun _ => ?_
  refine iteInduction (fun same => same ▸ .text) fun _ => ?_
  refine iteInduction (fun same => same ▸ .null (word_word ..)) fun _ => ?_
  refine iteInduction (fun same => same ▸ .true (word_word ..)) fun _ => ?_
  refine iteInduction (fun same => same ▸ .false (word_word ..)) fun _ => ?_
  refine iteInduction (fun _ => ?_) fun _ => .stray
  unfold numeral
  split
  · next read => exact .number read
  · exact .brokenNumber

theorem all_of_solid {c : Char} (solid : isBlank c = false) (cs : List Char) :
    all (c :: cs) = (starting c cs).1 :: all (starting c cs).2 := by
  rw [all, solid]
  exact if_neg Bool.false_ne_true

theorem unblanked_of_solid {c : Char} (solid : isBlank c = false) (cs : List Char) : unblanked (c :: cs) = c :: cs :=
  List.dropWhile_cons_of_neg (Bool.eq_false_iff.mp solid)

theorem all_unblanked (cs : List Char) : all (unblanked cs) = all cs := by
  induction cs with
  | nil => rfl
  | cons c cs ih =>
      cases blank : isBlank c with
      | true => rw [unblanked, List.dropWhile_cons_of_pos blank, all, if_pos blank, ← ih, unblanked]
      | false => rw [unblanked_of_solid blank]

theorem solid_of_unblanked {cs rest : List Char} {c : Char} (found : unblanked cs = c :: rest) : isBlank c = false := by
  have first := List.head?_dropWhile_not isBlank cs
  rw [← unblanked, found] at first
  simpa using first

/-- A token comes from the first character that is not blank. -/
theorem all_eq_cons_iff {cs : List Char} {token : Token} {more : List Token} :
    all cs = token :: more ↔
      ∃ c inner after, unblanked cs = c :: inner ∧ starting c inner = (token, after) ∧ all after = more := by
  rw [← all_unblanked]
  cases found : unblanked cs with
  | nil => simp [all]
  | cons c inner =>
      rw [all_of_solid (solid_of_unblanked found), List.cons.injEq]
      constructor
      · rintro ⟨rfl, rfl⟩
        exact ⟨c, inner, _, rfl, rfl, rfl⟩
      · rintro ⟨_, _, after, ⟨⟩, same, rfl⟩
        rw [same]
        exact ⟨rfl, rfl⟩

theorem all_eq_nil_iff {cs : List Char} : all cs = [] ↔ unblanked cs = [] := by
  rw [← all_unblanked]
  cases found : unblanked cs with
  | nil => simp [all]
  | cons c inner => simp [all_of_solid (solid_of_unblanked found)]

variable {cs : List Char} {more : List Token}

theorem all_eq_mark_iff {token : Token} {c : Char} (known : token.mark? = some c) :
    all cs = token :: more ↔ ∃ inner, unblanked cs = c :: inner ∧ all inner = more := by
  rw [all_eq_cons_iff]
  constructor
  · rintro ⟨d, inner, after, found, start, rest⟩
    have lexeme := start ▸ lexeme_starting d inner
    cases lexeme with
    | mark same =>
        cases known.symm.trans same
        exact ⟨inner, found, rest⟩
    | null word | true word | false word => cases word <;> cases known
    | _ => cases known
  · rintro ⟨inner, found, rest⟩
    refine ⟨c, inner, inner, found, ?_, rest⟩
    cases token <;> cases known <;> rfl

theorem all_eq_null_iff :
    all cs = .null :: more ↔ ∃ rest, unblanked cs = 'n' :: 'u' :: 'l' :: 'l' :: rest ∧ all rest = more := by
  rw [all_eq_cons_iff]
  constructor
  · rintro ⟨c, inner, after, found, start, others⟩
    have lexeme := start ▸ lexeme_starting c inner
    cases lexeme with
    | mark same => cases same
    | null word =>
        cases word with
        | whole parted => exact ⟨after, by rw [found, parted]; rfl, others⟩
    | true word | false word => cases word
  · rintro ⟨rest, found, others⟩
    exact ⟨'n', _, rest, found, rfl, others⟩

theorem all_eq_bool_iff {value : Bool} :
    all cs = .bool value :: more ↔ ∃ rest, unblanked cs = Value.word value ++ rest ∧ all rest = more := by
  rw [all_eq_cons_iff]
  constructor
  · rintro ⟨c, inner, after, found, start, others⟩
    have lexeme := start ▸ lexeme_starting c inner
    cases lexeme with
    | mark same => cases same
    | null word => cases word
    | true word | false word =>
        cases word with
        | whole parted => exact ⟨after, by rw [found, parted]; rfl, others⟩
  · rintro ⟨rest, found, others⟩
    cases value
    · exact ⟨'f', _, rest, found, rfl, others⟩
    · exact ⟨'t', _, rest, found, rfl, others⟩

theorem all_eq_text_iff {scanned : Scanned String} (passed : scanned.passed = .ok ()) :
    all cs = .text scanned :: more ↔ ∃ rest, Literal scanned cs rest ∧ all rest = more := by
  rw [all_eq_cons_iff]
  constructor
  · rintro ⟨c, inner, after, found, start, others⟩
    have lexeme := start ▸ lexeme_starting c inner
    cases lexeme with
    | mark same => cases same
    | text => exact ⟨_, ⟨inner, found, rfl, passed⟩, others⟩
    | null word | true word | false word => cases word
  · rintro ⟨rest, ⟨inner, found, next, _⟩, others⟩
    have start : starting '"' inner = (.text (TextLiteral.next inner).1, (TextLiteral.next inner).2) := rfl
    rw [next] at start
    exact ⟨'"', inner, rest, found, start, others⟩

theorem starting_numeral {c : Char} (starts : c = '-' ∨ ('0' ≤ c ∧ c ≤ '9')) (cs : List Char) :
    isBlank c = false ∧ starting c cs = numeral (c :: cs) := by
  have other (d : Char) (foreign : ¬ (d = '-' ∨ ('0' ≤ d ∧ d ≤ '9'))) : c ≠ d := by
    rintro rfl
    exact foreign starts
  constructor
  · simp only [isBlank, beq_eq_false_iff_ne.mpr, other ' ' (by decide), other '\n' (by decide),
      other '\t' (by decide), other '\r' (by decide), ne_eq, not_false_eq_true, Bool.or_self]
  · simp only [starting, other '[' (by decide), other ']' (by decide), other '{' (by decide),
      other '}' (by decide), other ':' (by decide), other ',' (by decide), other '"' (by decide),
      other 'n' (by decide), other 't' (by decide), other 'f' (by decide), starts, if_true, if_false]

theorem all_eq_number_iff {scanned : Scanned Number} (passed : scanned.passed = .ok ()) :
    all cs = .number scanned :: more ↔ ∃ rest, (∃ found : Numeral, Numeral.next (unblanked cs) = .ok (found, rest) ∧
      scanned = .whole found.value) ∧ all rest = more := by
  rw [all_eq_cons_iff]
  constructor
  · rintro ⟨c, inner, after, found, start, others⟩
    have lexeme := start ▸ lexeme_starting c inner
    cases lexeme with
    | mark same => cases same
    | null word | true word | false word => cases word
    | number read => exact ⟨after, ⟨_, by rw [found, read], rfl⟩, others⟩
    | brokenNumber => cases passed
  · rintro ⟨rest, ⟨found, read, rfl⟩, others⟩
    obtain ⟨c, inner, same, starts⟩ := Numeral.starts_of_next read
    refine ⟨c, inner, rest, same, ?_, others⟩
    rw [(starting_numeral starts inner).2, numeral, ← same, read]

/-- Whether the token can be passed over if it can be read. -/
def Passable : Token → Prop
  | number scanned => (∃ value, scanned.value = .ok value) → scanned.passed = .ok ()
  | text scanned => (∃ value, scanned.value = .ok value) → scanned.passed = .ok ()
  | _ => True

theorem passable_starting (c : Char) (cs : List Char) : (starting c cs).1.Passable := by
  generalize found : starting c cs = result
  cases found ▸ lexeme_starting c cs with
  | @mark c cs token known => cases token <;> trivial
  | text =>
      rintro ⟨value, read⟩
      exact TextLiteral.passed_of_read read
  | null word | true word | false word => cases word <;> trivial
  | number => exact fun _ => rfl
  | brokenNumber => rintro ⟨_, ⟨⟩⟩
  | stray => trivial

theorem passable_of_mem_all (cs : List Char) : ∀ token ∈ all cs, token.Passable := by
  fun_induction all cs with
  | case1 => exact List.forall_mem_nil _
  | case2 c cs blank ih => exact ih
  | case3 c cs solid ih => exact List.forall_mem_cons.mpr ⟨passable_starting c cs, ih⟩

end Token

theorem Literal.of_unblanked {scanned : Scanned String} {cs others rest : List Char} (literal : Literal scanned cs rest)
    (same : unblanked others = unblanked cs) : Literal scanned others rest := by
  rwa [Literal, same]

end VisualEffects.Json
