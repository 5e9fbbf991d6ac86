import VisualEffects.Proofs.Spellings

namespace VisualEffects.Json

/-! The document of a written value.

A value written on one line is cut into its tokens and put together to one tree, without anything left over.
The tree holds the texts as they were; of a number it holds what its numeral is read as.
-/

namespace TextLiteral

/-- The piece that a written character is scanned as: controls without a short escape become units. -/
def pieceOf (c : Char) : Piece :=
  if c ∈ ['"', '\\', '\x08', '\x0c', '\n', '\r', '\t'] then .char c
  else if c.toNat < 0x20 then .unit c.toNat
  else .char c

theorem scan_unit {n : Nat} (below : n < 0x10000) (rest : List Char) :
    scan ('\\' :: 'u' :: Text.Hex.digits 4 n ++ rest) = (.unit n :: (scan rest).1, (scan rest).2) := by
  have value := Text.Hex.value?_digits 4 n
  have length := Text.Hex.length_digits 4 n
  rw [Nat.mod_eq_of_lt below] at value
  match Text.Hex.digits 4 n, value, length with
  | [a, b, c, d], value, _ => simp only [List.cons_append, List.nil_append, scan, value]

theorem scan_textChar (c : Char) (rest : List Char) :
    scan (Value.textChar c ++ rest) = (pieceOf c :: (scan rest).1, (scan rest).2) := by
  unfold pieceOf
  split
  · rename_i short
    simp only [List.mem_cons, List.not_mem_nil, or_false] at short
    rcases short with rfl | rfl | rfl | rfl | rfl | rfl | rfl <;> simp [Value.textChar, scan, escaped?]
  · rename_i long
    simp only [List.mem_cons, List.not_mem_nil, or_false, not_or] at long
    simp only [Value.textChar, long, if_false]
    split
    · rename_i control
      exact scan_unit (Nat.lt_trans control (by decide)) rest
    · rename_i printed
      exact scan_plain long.1 long.2.1 printed rest

theorem scan_text (cs rest : List Char) :
    scan (cs.flatMap Value.textChar ++ '"' :: rest) = (cs.map pieceOf, .closed rest) := by
  induction cs with
  | nil => simp only [List.flatMap_nil, List.nil_append, scan, List.map_nil]
  | cons c cs ih => rw [List.flatMap_cons, List.append_assoc, scan_textChar, ih, List.map_cons]

/-- A unit that is no surrogate is a character of its own, whatever comes next. -/
theorem read_unit {n : Nat} (below : n < 0xd800) (pieces : List Piece) (ending : Ending) :
    read (.unit n :: pieces) ending = (read pieces ending).map (Char.ofNat n :: ·) := by
  have low : isLowSurrogate n = false := by
    simp only [isLowSurrogate, Bool.and_eq_false_iff, decide_eq_false_iff_not]
    omega
  have high : isHighSurrogate n = false := by
    simp only [isHighSurrogate, Bool.and_eq_false_iff, decide_eq_false_iff_not]
    omega
  match pieces with
  | [] => simp only [read, low, high, Bool.false_eq_true, if_false]
  | .char c :: rest => simp only [read, low, high, Bool.false_eq_true, if_false]
  | .unit m :: rest => simp only [read, low, high, Bool.false_eq_true, Bool.not_false, if_false, if_true]

theorem read_pieces (cs rest : List Char) : read (cs.map pieceOf) (.closed rest) = .ok cs := by
  induction cs with
  | nil => rfl
  | cons c cs ih =>
      have piece : read (pieceOf c :: cs.map pieceOf) (.closed rest) =
          (read (cs.map pieceOf) (.closed rest)).map (c :: ·) := by
        unfold pieceOf
        split
        · rfl
        · split
          · rw [read_unit (by omega), Char.ofNat_toNat]
          · rfl
      rw [List.map_cons, piece, ih]
      rfl

theorem next_writtenText (text : String) (rest : List Char) :
    next (text.toList.flatMap Value.textChar ++ '"' :: rest) = (.whole (.ok text), rest) := by
  simp only [next, scan_text, read_pieces, Ending.fault?, Ending.rest, Except.map, String.ofList_toList, Scanned.whole]

end TextLiteral

namespace Value

mutual
/-- The numbers of a value, in the order in which they are written. -/
def numbers : Value → List Number
  | null => []
  | bool _ => []
  | number value => [value]
  | text _ => []
  | list items => numbersItems items
  | object members => numbersMembers members

def numbersItems : List Value → List Number
  | [] => []
  | item :: rest => numbers item ++ numbersItems rest

def numbersMembers : List (String × Value) → List Number
  | [] => []
  | (_, value) :: rest => numbers value ++ numbersMembers rest
end

mutual
/-- The tree of a value that is written and read. -/
def node : Value → Node
  | null => .null
  | bool value => .bool value
  | number value => .number (.whole value.reread)
  | text value => .text (.whole (.ok value))
  | list items => .list (nodeItems items) .closed
  | object members => .object (nodeMembers members) .closed

def nodeItems : List Value → List Node
  | [] => []
  | item :: rest => node item :: nodeItems rest

def nodeMembers : List (String × Value) → List Member
  | [] => []
  | (key, value) :: rest => (.whole (.ok key), node value) :: nodeMembers rest
end

end Value

open Numeral (Stops stops_cons)

theorem literal_writtenText (text : String) (rest : List Char) :
    Literal (.whole (.ok text)) (Value.writtenText text ++ rest) rest := by
  refine ⟨text.toList.flatMap Value.textChar ++ '"' :: rest, ?_, TextLiteral.next_writtenText text rest, rfl⟩
  simp only [Value.writtenText, List.cons_append, List.append_assoc, List.nil_append]
  exact Token.unblanked_of_solid (by decide) _

namespace Node

theorem spells_render {number : Number} (written : number.IsWritten) {rest : List Char} (stops : Stops rest) :
    (Node.number (.whole number.reread)).Spells (number.render ++ rest) rest := by
  obtain ⟨found, next, reread⟩ := Number.next_render written stops
  obtain ⟨c, cs, same, starts⟩ := Numeral.starts_of_next next
  have solid := (Token.starting_numeral starts cs).1
  refine ⟨found, ?_, by rw [reread]⟩
  rw [same, Token.unblanked_of_solid solid, ← same, next]

theorem spells_word (value : Bool) (rest : List Char) : (Node.bool value).Spells (Value.word value ++ rest) rest := by
  cases value <;> exact Token.unblanked_of_solid (by decide) _

end Node

namespace Value

theorem stops_compactItems (items : List Value) (after : List Char) : Stops (compactItems items ++ after) := by
  cases items with
  | nil => exact stops_cons (by decide) _
  | cons item rest => exact stops_cons (by decide) _

theorem stops_compactMembers (members : List (String × Value)) (after : List Char) :
    Stops (compactMembers members ++ after) := by
  cases members with
  | nil => exact stops_cons (by decide) _
  | cons member rest => exact stops_cons (by decide) _

theorem stops_indentedItems (level : Nat) (items : List Value) (after : List Char) :
    Stops (indentedItems level items ++ after) := by
  cases items with
  | nil => exact stops_cons (by decide) _
  | cons item rest => exact stops_cons (by decide) _

theorem stops_indentedMembers (level : Nat) (members : List (String × Value)) (after : List Char) :
    Stops (indentedMembers level members ++ after) := by
  cases members with
  | nil => exact stops_cons (by decide) _
  | cons member rest => exact stops_cons (by decide) _

mutual
/-- A value written on one line spells its tree. -/
theorem spells_compact (value : Value) (written : ∀ n ∈ value.numbers, n.IsWritten) {after : List Char}
    (stops : Stops after) : value.node.Spells (value.compact ++ after) after :=
  match value with
  | .null => Token.unblanked_of_solid (by decide) _
  | .bool value => Node.spells_word value after
  | .number value => Node.spells_render (written value (List.mem_singleton_self value)) stops
  | .text value => literal_writtenText value after
  | .list [] => ⟨rfl, ']' :: after, Token.unblanked_of_solid (by decide) _, Token.unblanked_of_solid (by decide) _⟩
  | .list (first :: rest) => by
      simp only [numbers, numbersItems, List.forall_mem_append] at written
      refine ⟨rfl, first.compact ++ (compactItems rest ++ after), ?_, compactItems rest ++ after,
        spells_compact first written.1 (stops_compactItems rest after), spells_compactItems rest written.2 after⟩
      rw [compact, List.append_assoc]
      exact Token.unblanked_of_solid (by decide) _
  | .object [] =>
      ⟨rfl, '}' :: after, Token.unblanked_of_solid (by decide) _, Token.unblanked_of_solid (by decide) _⟩
  | .object ((key, first) :: rest) => by
      simp only [numbers, numbersMembers, List.forall_mem_append] at written
      refine ⟨rfl, writtenText key ++ (':' :: first.compact ++ (compactMembers rest ++ after)), ?_, _, _, _,
        literal_writtenText key _, Token.unblanked_of_solid (by decide) _,
        spells_compact first written.1 (stops_compactMembers rest after), spells_compactMembers rest written.2 after⟩
      simp only [compact, List.append_assoc, List.cons_append]
      exact Token.unblanked_of_solid (by decide) _

theorem spells_compactItems (items : List Value) (written : ∀ n ∈ numbersItems items, n.IsWritten)
    (after : List Char) : Node.SpellsItems (nodeItems items) (compactItems items ++ after) after :=
  match items with
  | [] => Token.unblanked_of_solid (by decide) _
  | item :: rest => by
      simp only [numbersItems, List.forall_mem_append] at written
      refine ⟨item.compact ++ (compactItems rest ++ after), compactItems rest ++ after, ?_,
        spells_compact item written.1 (stops_compactItems rest after), spells_compactItems rest written.2 after⟩
      rw [compactItems, List.append_assoc]
      exact Token.unblanked_of_solid (by decide) _

theorem spells_compactMembers (members : List (String × Value)) (written : ∀ n ∈ numbersMembers members, n.IsWritten)
    (after : List Char) : Node.SpellsMembers (nodeMembers members) (compactMembers members ++ after) after :=
  match members with
  | [] => Token.unblanked_of_solid (by decide) _
  | (key, value) :: rest => by
      simp only [numbersMembers, List.forall_mem_append] at written
      refine ⟨writtenText key ++ (':' :: value.compact ++ (compactMembers rest ++ after)), _, _, _, ?_,
        literal_writtenText key _, Token.unblanked_of_solid (by decide) _,
        spells_compact value written.1 (stops_compactMembers rest after), spells_compactMembers rest written.2 after⟩
      simp only [compactMembers, List.append_assoc, List.cons_append]
      exact Token.unblanked_of_solid (by decide) _
end

theorem isBlank_newLine (level : Nat) : ∀ c ∈ newLine level, Token.isBlank c = true := by
  intro c member
  rcases List.mem_cons.mp member with rfl | member
  · rfl
  · rw [(List.mem_replicate.mp member).2]
    rfl

theorem unblanked_newLine (level : Nat) (rest : List Char) : unblanked (newLine level ++ rest) = unblanked rest :=
  List.dropWhile_append_of_pos (isBlank_newLine level)

mutual
/-- A value written with indentation spells its tree, too. -/
theorem spells_indented (value : Value) (level : Nat) (written : ∀ n ∈ value.numbers, n.IsWritten) {after : List Char}
    (stops : Stops after) : value.node.Spells (value.indented level ++ after) after :=
  match value with
  | .null => Token.unblanked_of_solid (by decide) _
  | .bool value => Node.spells_word value after
  | .number value => Node.spells_render (written value (List.mem_singleton_self value)) stops
  | .text value => literal_writtenText value after
  | .list [] => ⟨rfl, ']' :: after, Token.unblanked_of_solid (by decide) _, Token.unblanked_of_solid (by decide) _⟩
  | .list (first :: rest) => by
      simp only [numbers, numbersItems, List.forall_mem_append] at written
      have item := spells_indented first (level + 1) written.1 (stops_indentedItems level rest after)
      refine ⟨rfl, newLine (level + 1) ++ (first.indented (level + 1) ++ (indentedItems level rest ++ after)), ?_,
        indentedItems level rest ++ after, item.of_unblanked (unblanked_newLine _ _),
        spells_indentedItems rest level written.2 after⟩
      simp only [indented, List.append_assoc, List.cons_append]
      exact Token.unblanked_of_solid (by decide) _
  | .object [] =>
      ⟨rfl, '}' :: after, Token.unblanked_of_solid (by decide) _, Token.unblanked_of_solid (by decide) _⟩
  | .object ((key, first) :: rest) => by
      simp only [numbers, numbersMembers, List.forall_mem_append] at written
      have content := spells_indented first (level + 1) written.1 (stops_indentedMembers level rest after)
      refine ⟨rfl, newLine (level + 1) ++ (writtenText key ++ (':' :: ' ' :: first.indented (level + 1) ++
        (indentedMembers level rest ++ after))), ?_, _, _, _,
        (literal_writtenText key _).of_unblanked (unblanked_newLine _ _), Token.unblanked_of_solid (by decide) _,
        content.of_unblanked rfl, spells_indentedMembers rest level written.2 after⟩
      simp only [indented, List.append_assoc, List.cons_append]
      exact Token.unblanked_of_solid (by decide) _

theorem spells_indentedItems (items : List Value) (level : Nat) (written : ∀ n ∈ numbersItems items, n.IsWritten)
    (after : List Char) : Node.SpellsItems (nodeItems items) (indentedItems level items ++ after) after :=
  match items with
  | [] => by
      rw [indentedItems, List.append_assoc]
      exact (unblanked_newLine level _).trans (Token.unblanked_of_solid (by decide) _)
  | item :: rest => by
      simp only [numbersItems, List.forall_mem_append] at written
      have spelled := spells_indented item (level + 1) written.1 (stops_indentedItems level rest after)
      refine ⟨newLine (level + 1) ++ (item.indented (level + 1) ++ (indentedItems level rest ++ after)),
        indentedItems level rest ++ after, ?_, spelled.of_unblanked (unblanked_newLine _ _),
        spells_indentedItems rest level written.2 after⟩
      simp only [indentedItems, List.append_assoc, List.cons_append]
      exact Token.unblanked_of_solid (by decide) _

theorem spells_indentedMembers (members : List (String × Value)) (level : Nat)
    (written : ∀ n ∈ numbersMembers members, n.IsWritten) (after : List Char) :
    Node.SpellsMembers (nodeMembers members) (indentedMembers level members ++ after) after :=
  match members with
  | [] => by
      rw [indentedMembers, List.append_assoc]
      exact (unblanked_newLine level _).trans (Token.unblanked_of_solid (by decide) _)
  | (key, value) :: rest => by
      simp only [numbersMembers, List.forall_mem_append] at written
      have content := spells_indented value (level + 1) written.1 (stops_indentedMembers level rest after)
      refine ⟨newLine (level + 1) ++ (writtenText key ++ (':' :: ' ' :: value.indented (level + 1) ++
        (indentedMembers level rest ++ after))), _, _, _, ?_,
        (literal_writtenText key _).of_unblanked (unblanked_newLine _ _), Token.unblanked_of_solid (by decide) _,
        content.of_unblanked rfl, spells_indentedMembers rest level written.2 after⟩
      simp only [indentedMembers, List.append_assoc, List.cons_append]
      exact Token.unblanked_of_solid (by decide) _
end

end Value

theorem Value.spelledBy_line {value : Value} (written : ∀ n ∈ value.numbers, n.IsWritten) :
    value.node.SpelledBy value.line := by
  have letters : value.line.toList = value.compact := String.toList_ofList
  have spelled := value.spells_compact written Numeral.stops_nil
  rw [List.append_nil, ← letters] at spelled
  exact ⟨[], spelled, rfl⟩

/-- A value written on one line is a document with nothing behind it. -/
theorem Document.ofText_line {value : Value} (written : ∀ n ∈ value.numbers, n.IsWritten) :
    Document.ofText value.line = ⟨value.node, false⟩ := (Value.spelledBy_line written).ofText

namespace Value

mutual
/-- How many lists and objects stand around the innermost place of a value. -/
def nesting : Value → Nat
  | list items => nestingItems items + 1
  | object members => nestingMembers members + 1
  | null | bool _ | number _ | text _ => 0

def nestingItems : List Value → Nat
  | [] => 0
  | item :: rest => max (nesting item) (nestingItems rest)

def nestingMembers : List (String × Value) → Nat
  | [] => 0
  | (_, value) :: rest => max (nesting value) (nestingMembers rest)
end

mutual
/-- The value with every number replaced by what its text is read as. -/
def reread : Value → Except Fault Value
  | null => .ok null
  | bool value => .ok (.bool value)
  | number value => value.reread.map .number
  | text value => .ok (.text value)
  | list items => (rereadItems items).map .list
  | object members => (rereadMembers members).map .object

def rereadItems : List Value → Except Fault (List Value)
  | [] => .ok []
  | item :: rest => do
      let first ← reread item
      let others ← rereadItems rest
      return first :: others

def rereadMembers : List (String × Value) → Except Fault (List (String × Value))
  | [] => .ok []
  | (key, value) :: rest => do
      let first ← reread value
      let others ← rereadMembers rest
      return (key, first) :: others
end

mutual
/-- Reading a written value whole changes nothing but its numbers, as long as there is room for it. -/
theorem value_node (value : Value) {room : Nat} (fits : value.nesting ≤ room) :
    Node.value room value.node = value.reread :=
  match value with
  | .null => by rw [node, Node.value, reread]
  | .bool value => by rw [node, Node.value, reread]
  | .number value => by rw [node, Node.value, reread, Scanned.whole]
  | .text value => by
      rw [node, Node.value, reread, Scanned.whole]
      rfl
  | .list items =>
      match room, fits with
      | room + 1, fits => by
          have inner := valueItems_nodeItems items (Nat.le_of_succ_le_succ fits)
          rw [node, Node.value, inner, reread]
          cases rereadItems items <;> rfl
  | .object members =>
      match room, fits with
      | room + 1, fits => by
          have inner := valueMembers_nodeMembers members (Nat.le_of_succ_le_succ fits)
          rw [node, Node.value, inner, reread]
          cases rereadMembers members <;> rfl

theorem valueItems_nodeItems (items : List Value) {room : Nat} (fits : nestingItems items ≤ room) :
    Node.valueItems room (nodeItems items) = rereadItems items :=
  match items with
  | [] => by rw [nodeItems, Node.valueItems, rereadItems]
  | item :: rest => by
      obtain ⟨first, others⟩ := Nat.max_le.mp fits
      rw [nodeItems, Node.valueItems, rereadItems, value_node item first, valueItems_nodeItems rest others]

theorem valueMembers_nodeMembers (members : List (String × Value)) {room : Nat}
    (fits : nestingMembers members ≤ room) :
    Node.valueMembers room (nodeMembers members) = rereadMembers members :=
  match members with
  | [] => by rw [nodeMembers, Node.valueMembers, rereadMembers]
  | (key, value) :: rest => by
      obtain ⟨first, others⟩ := Nat.max_le.mp fits
      rw [nodeMembers, Node.valueMembers, rereadMembers, value_node value first,
        valueMembers_nodeMembers rest others]
      rfl
end

end Value

end VisualEffects.Json
