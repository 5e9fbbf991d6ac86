import VisualEffects.Proofs.Lexemes

namespace VisualEffects.Json

/-! The texts of a tree.

A text spells a tree when it holds the lexemes of the tree in order, with any blanks before each of them.  This is the
grammar of JSON without the machine that builds trees.  A text is read as the tree it spells.
-/

namespace Node

mutual
/-- Whether a text starts with a spelling of a tree; `rest` follows it. -/
def Spells : Node → List Char → List Char → Prop
  | .gap _, _, _ => False
  | .null, cs, rest => unblanked cs = 'n' :: 'u' :: 'l' :: 'l' :: rest
  | .bool value, cs, rest => unblanked cs = Value.word value ++ rest
  | .number scanned, cs, rest =>
      ∃ found : Numeral, Numeral.next (unblanked cs) = .ok (found, rest) ∧ scanned = .whole found.value
  | .text scanned, cs, rest => Literal scanned cs rest
  | .list items ending, cs, rest =>
      ending = .closed ∧ ∃ inner, unblanked cs = '[' :: inner ∧
        match items with
        | [] => unblanked inner = ']' :: rest
        | first :: others => ∃ after, Spells first inner after ∧ SpellsItems others after rest
  | .object members ending, cs, rest =>
      ending = .closed ∧ ∃ inner, unblanked cs = '{' :: inner ∧
        match members with
        | [] => unblanked inner = '}' :: rest
        | (key, node) :: others => ∃ colon value after, Literal key inner colon ∧ unblanked colon = ':' :: value ∧
            Spells node value after ∧ SpellsMembers others after rest

/-- The items after the first one, and the closing bracket. -/
def SpellsItems : List Node → List Char → List Char → Prop
  | [], cs, rest => unblanked cs = ']' :: rest
  | item :: others, cs, rest => ∃ inner after, unblanked cs = ',' :: inner ∧ Spells item inner after ∧
      SpellsItems others after rest

/-- The members after the first one, and the closing brace. -/
def SpellsMembers : List (Scanned String × Node) → List Char → List Char → Prop
  | [], cs, rest => unblanked cs = '}' :: rest
  | (key, node) :: others, cs, rest => ∃ inner colon value after, unblanked cs = ',' :: inner ∧
      Literal key inner colon ∧ unblanked colon = ':' :: value ∧ Spells node value after ∧
      SpellsMembers others after rest
end

/-- Blanks before a spelling do not matter. -/
theorem Spells.of_unblanked {tree : Node} {cs others rest : List Char} (spelled : tree.Spells cs rest)
    (same : unblanked others = unblanked cs) : tree.Spells others rest := by
  cases tree with
  | gap cause => exact spelled.elim
  | _ => simpa only [Spells, Literal, same] using spelled

end Node

namespace Progress

def along (progress : Progress) (cs : List Char) : Progress := (Token.all cs).foldl step progress

theorem along_cons {cs rest : List Char} {token : Token} (first : Token.all cs = token :: Token.all rest)
    (progress : Progress) : progress.along cs = (progress.step token).along rest := by
  rw [along, first]
  rfl

theorem along_mark (token : Token) {cs rest : List Char} {c : Char} (found : unblanked cs = c :: rest)
    (known : token.mark? = some c) (progress : Progress) : progress.along cs = (progress.step token).along rest :=
  along_cons ((Token.all_eq_mark_iff known).mpr ⟨rest, found, rfl⟩) progress

/-- Whether a value comes next, which goes into the containers `around`. -/
def Awaits (progress : Progress) (around : List Frame) : Prop :=
  ∀ token, token ≠ .closeList → progress.step token = startValue token around

theorem awaits_value (around : List Frame) : Awaits (.expecting .value around) around := fun _ _ => rfl

theorem awaits_firstItem (around : List Frame) : Awaits (.expecting .firstItem around) (.list [] :: around) := by
  intro token value
  cases token <;> first | rfl | exact absurd rfl value

theorem awaits_nextItem (items : List Node) (around : List Frame) :
    Awaits (.expecting (.nextItem items) around) (.list items :: around) := by
  intro token value
  cases token <;> first | rfl | exact absurd rfl value

theorem along_start {progress : Progress} {around : List Frame} (awaits : progress.Awaits around)
    {cs rest : List Char} {token : Token} (first : Token.all cs = token :: Token.all rest)
    (value : token ≠ .closeList) : progress.along cs = (startValue token around).along rest := by
  rw [along_cons first, awaits token value]

theorem step_firstKey (around : List Frame) (token : Token) (other : token ≠ .closeObject) :
    step (.expecting .firstKey around) token = startKey [] token around := by
  cases token <;> first | rfl | exact absurd rfl other

theorem step_nextKey (members : List Member) (around : List Frame) (token : Token) (other : token ≠ .closeObject) :
    step (.expecting (.nextKey members) around) token = startKey members token around := by
  cases token <;> first | rfl | exact absurd rfl other

theorem along_key {place : Place} {members : List Member} {around : List Frame} {key : Scanned String}
    (start : ∀ token, token ≠ .closeObject → step (.expecting place around) token = startKey members token around)
    {cs colon value : List Char} (literal : Literal key cs colon) (marked : unblanked colon = ':' :: value) :
    along (.expecting place around) cs = along (.expecting .value (.object members key :: around)) value := by
  obtain ⟨_, _, _, passed⟩ := id literal
  rw [along_cons ((Token.all_eq_text_iff passed).mpr ⟨colon, literal, rfl⟩), start (.text key) nofun,
    along_mark .colon marked rfl]
  simp only [startKey, passed, step]

mutual
/-- A text that spells a tree becomes that tree where a value may stand. -/
theorem along_spelled (tree : Node) {progress : Progress} {around : List Frame} (awaits : progress.Awaits around)
    {cs rest : List Char} (spelled : tree.Spells cs rest) : progress.along cs = (put tree around).along rest :=
  match tree, spelled with
  | .null, spelled => along_start awaits (Token.all_eq_null_iff.mpr ⟨rest, spelled, rfl⟩) nofun
  | .bool _, spelled => along_start awaits (Token.all_eq_bool_iff.mpr ⟨rest, spelled, rfl⟩) nofun
  | .number _, ⟨found, read, same⟩ => by
      subst same
      exact along_start awaits ((Token.all_eq_number_iff rfl).mpr ⟨rest, ⟨found, read, rfl⟩, rfl⟩) nofun
  | .text scanned, literal => by
      obtain ⟨_, _, _, passed⟩ := id literal
      rw [along_start awaits ((Token.all_eq_text_iff passed).mpr ⟨rest, literal, rfl⟩) nofun]
      simp only [startValue, putScanned, passed]
  | .list [] _, ⟨rfl, inner, opened, closed⟩ => by
      rw [along_mark .openList opened rfl, awaits .openList nofun, along_mark .closeList closed rfl]
      rfl
  | .list (first :: others) _, ⟨rfl, inner, opened, after, spelled, more⟩ => by
      calc progress.along cs
        _ = along (.expecting .firstItem around) inner := by
            rw [along_mark .openList opened rfl, awaits .openList nofun]
            rfl
        _ = (put first (.list [] :: around)).along after := along_spelled first (awaits_firstItem around) spelled
        _ = (put (.list (first :: others) .closed) around).along rest :=
            along_spelledItems others more [first] around
  | .object [] _, ⟨rfl, inner, opened, closed⟩ => by
      rw [along_mark .openObject opened rfl, awaits .openObject nofun, along_mark .closeObject closed rfl]
      rfl
  | .object ((key, node) :: others) _, ⟨rfl, inner, opened, colon, value, after, literal, marked, spelled, more⟩ => by
      calc progress.along cs
        _ = along (.expecting .firstKey around) inner := by
            rw [along_mark .openObject opened rfl, awaits .openObject nofun]
            rfl
        _ = along (.expecting .value (.object [] key :: around)) value :=
            along_key (step_firstKey around) literal marked
        _ = (put node (.object [] key :: around)).along after := along_spelled node (awaits_value _) spelled
        _ = (put (.object ((key, node) :: others) .closed) around).along rest :=
            along_spelledMembers others more [(key, node)] around

theorem along_spelledItems (items : List Node) {cs rest : List Char} (spelled : Node.SpellsItems items cs rest)
    (before : List Node) (around : List Frame) :
    along (.expecting (.afterItem before) around) cs =
      (put (.list (before.reverse ++ items) .closed) around).along rest :=
  match items, spelled with
  | [], closed => by
      rw [along_mark .closeList closed rfl, List.append_nil]
      rfl
  | item :: others, ⟨inner, after, comma, spelled, more⟩ => by
      calc along (.expecting (.afterItem before) around) cs
        _ = along (.expecting (.nextItem before) around) inner := by
            rw [along_mark .comma comma rfl]
            rfl
        _ = (put item (.list before :: around)).along after := along_spelled item (awaits_nextItem before around) spelled
        _ = (put (.list ((item :: before).reverse ++ others) .closed) around).along rest :=
            along_spelledItems others more (item :: before) around
        _ = (put (.list (before.reverse ++ item :: others) .closed) around).along rest := by
            rw [List.reverse_cons, List.append_assoc]
            rfl

theorem along_spelledMembers (members : List Member) {cs rest : List Char}
    (spelled : Node.SpellsMembers members cs rest) (before : List Member) (around : List Frame) :
    along (.expecting (.afterMember before) around) cs =
      (put (.object (before.reverse ++ members) .closed) around).along rest :=
  match members, spelled with
  | [], closed => by
      rw [along_mark .closeObject closed rfl, List.append_nil]
      rfl
  | (key, node) :: others, ⟨inner, colon, value, after, comma, literal, marked, spelled, more⟩ => by
      calc along (.expecting (.afterMember before) around) cs
        _ = along (.expecting (.nextKey before) around) inner := by
            rw [along_mark .comma comma rfl]
            rfl
        _ = along (.expecting .value (.object before key :: around)) value :=
            along_key (step_nextKey before around) literal marked
        _ = (put node (.object before key :: around)).along after := along_spelled node (awaits_value _) spelled
        _ = (put (.object (((key, node) :: before).reverse ++ others) .closed) around).along rest :=
            along_spelledMembers others more ((key, node) :: before) around
        _ = (put (.object (before.reverse ++ (key, node) :: others) .closed) around).along rest := by
            rw [List.reverse_cons, List.append_assoc]
            rfl
end

end Progress

/-- Whether a text spells a tree, with nothing but blanks after it. -/
def Node.SpelledBy (tree : Node) (text : String) : Prop := ∃ rest, tree.Spells text.toList rest ∧ unblanked rest = []

/-- A text is read as the tree that it spells. -/
theorem Node.SpelledBy.ofText {tree : Node} {text : String} (spelled : tree.SpelledBy text) :
    Document.ofText text = ⟨tree, false⟩ := by
  obtain ⟨rest, spelled, blank⟩ := spelled
  have built := Progress.along_spelled tree (Progress.awaits_value []) spelled
  rw [Progress.along, Progress.along, Token.all_eq_nil_iff.mpr blank] at built
  rw [Document.ofText, Document.ofTokens, built]
  rfl

end VisualEffects.Json
