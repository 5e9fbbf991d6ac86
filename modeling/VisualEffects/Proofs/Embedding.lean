import VisualEffects.Proofs.Spellings

namespace VisualEffects.Json

/-! A spelling stays one when the text goes on.

What follows a lexeme is not looked at, as long as it does not go on with a numeral.  So the spelling of a tree can stand
inside the spelling of a larger one.
-/

variable {suffix : List Char}

namespace Numeral

variable (stops : Stops suffix)
include stops

theorem digits_append_of_stops (cs : List Char) : digits (cs ++ suffix) = ((digits cs).1, (digits cs).2 ++ suffix) :=
  digits_append (fun c first => (stops c first).1) cs

theorem wholePart_append {cs rest : List Char} {whole : List Nat} (read : wholePart cs = .ok (whole, rest)) :
    wholePart (cs ++ suffix) = .ok (whole, rest ++ suffix) := by
  unfold wholePart at read ⊢
  rw [digits_append_of_stops stops]
  generalize digits cs = found at read ⊢
  obtain ⟨found, after⟩ := found
  match found, read with
  | [0], rfl => rfl
  | (_ + 1) :: _, rfl => rfl

theorem fractionPart_append {cs rest : List Char} {fraction : Option (List Nat)}
    (read : fractionPart cs = .ok (fraction, rest)) : fractionPart (cs ++ suffix) = .ok (fraction, rest ++ suffix) := by
  unfold fractionPart at read
  split at read
  · next cs =>
      rw [List.cons_append, fractionPart, digits_append_of_stops stops]
      generalize digits cs = found at read ⊢
      obtain ⟨found, after⟩ := found
      cases found with
      | nil => cases read
      | cons =>
          cases read
          rfl
  · next other =>
      cases read
      refine fractionPart_none fun c first => ?_
      cases cs with
      | nil => exact (stops c first).2.1
      | cons d cs =>
          rintro rfl
          cases first
          exact other cs rfl

theorem exponentDigits_append {cs rest : List Char} {exponent : Option (Bool × List Nat)}
    (read : exponentDigits cs = .ok (exponent, rest)) : exponentDigits (cs ++ suffix) = .ok (exponent, rest ++ suffix) := by
  have sign : exponentSign (cs ++ suffix) = ((exponentSign cs).1, (exponentSign cs).2 ++ suffix) := by
    cases cs with
    | nil => cases read
    | cons c cs =>
        by_cases minus : c = '-'
        · subst minus
          rfl
        · by_cases plus : c = '+'
          · subst plus
            rfl
          · simp [exponentSign, minus, plus]
  unfold exponentDigits at read ⊢
  rw [sign, digits_append_of_stops stops]
  generalize digits (exponentSign cs).2 = found at read ⊢
  obtain ⟨found, after⟩ := found
  cases found with
  | nil => cases read
  | cons =>
      cases read
      rfl

theorem exponentPart_append {cs rest : List Char} {exponent : Option (Bool × List Nat)}
    (read : exponentPart cs = .ok (exponent, rest)) : exponentPart (cs ++ suffix) = .ok (exponent, rest ++ suffix) := by
  unfold exponentPart at read
  split at read
  · exact exponentDigits_append stops read
  · exact exponentDigits_append stops read
  · next small great =>
      cases read
      refine exponentPart_none fun c first => ?_
      cases cs with
      | nil => exact (stops c first).2.2
      | cons d cs =>
          cases first
          exact ⟨fun same => small cs (same ▸ rfl), fun same => great cs (same ▸ rfl)⟩

theorem nextUnsigned_append {cs rest : List Char} {negative : Bool} {found : Numeral}
    (read : nextUnsigned negative cs = .ok (found, rest)) :
    nextUnsigned negative (cs ++ suffix) = .ok (found, rest ++ suffix) := by
  obtain ⟨⟨whole, afterWhole⟩, first, read⟩ := bind_eq_ok.mp read
  obtain ⟨⟨fraction, afterFraction⟩, second, read⟩ := bind_eq_ok.mp read
  obtain ⟨⟨exponent, afterExponent⟩, third, read⟩ := bind_eq_ok.mp read
  cases read
  exact nextUnsigned_of_parts (wholePart_append stops first) (fractionPart_append stops second)
    (exponentPart_append stops third) negative

theorem next_append {cs rest : List Char} {found : Numeral} (read : next cs = .ok (found, rest)) :
    next (cs ++ suffix) = .ok (found, rest ++ suffix) := by
  unfold next at read
  split at read
  · exact nextUnsigned_append stops read
  · exact next_of_nextUnsigned (nextUnsigned_append stops read)

end Numeral

namespace TextLiteral

theorem scan_append {cs rest : List Char} {pieces : List Piece} (scanned : scan cs = (pieces, .closed rest))
    (suffix : List Char) : scan (cs ++ suffix) = (pieces, .closed (rest ++ suffix)) := by
  have broken {rest : List Char} (cs : List Char) : brokenUnit cs ≠ .closed rest := by
    unfold brokenUnit
    split <;> nofun
  -- A scan that closes has met the closing quote, an escape of a unit, a short escape or a character as it is.
  fun_induction scan cs generalizing pieces with
  | case2 others =>
      cases scanned
      rfl
  | case4 a b c d others n known ih =>
      obtain ⟨rfl, closed⟩ := Prod.mk.inj scanned
      have later := ih (Prod.ext rfl closed)
      simp only [List.cons_append, scan, known, later]
  | case5 | case7 => exact absurd (Prod.mk.inj scanned).2 (broken _)
  | case6 c others _ plain known ih =>
      obtain ⟨rfl, closed⟩ := Prod.mk.inj scanned
      have later := ih (Prod.ext rfl closed)
      have short : c ≠ 'u' := by
        rintro rfl
        cases known
      rw [List.cons_append, List.cons_append, scan, known]
      · simp only [later]
      · exact fun _ _ _ _ _ unit _ => short unit
  | case10 c others quote last _ escape printed ih =>
      obtain ⟨rfl, closed⟩ := Prod.mk.inj scanned
      have later := ih (Prod.ext rfl closed)
      have backslash : c ≠ '\\' := by
        intro same
        cases others with
        | nil => exact last same rfl
        | cons d others => exact escape d others same rfl
      rw [List.cons_append, scan_plain quote backslash printed, later]
  | _ => cases scanned

/-- What pieces are read as does not depend on what follows their closing quote. -/
theorem read_closed (pieces : List Piece) (rest other : List Char) :
    read pieces (.closed rest) = read pieces (.closed other) :=
  match pieces with
  | [] => rfl
  | .char _ :: others => by simp only [read, read_closed others rest other]
  | [.unit _] => rfl
  | .unit _ :: .char c :: others => by simp only [read, read_closed others rest other]
  | .unit _ :: .unit low :: others => by
      rw [read, read, read_closed (.unit low :: others) rest other, read_closed others rest other]

theorem next_append {cs rest : List Char} {scanned : Scanned String} (found : next cs = (scanned, rest))
    (passed : scanned.passed = .ok ()) (suffix : List Char) : next (cs ++ suffix) = (scanned, rest ++ suffix) := by
  generalize known : scan cs = result at found
  obtain ⟨pieces, ending⟩ := result
  simp only [next, known] at found
  obtain ⟨rfl, rfl⟩ := Prod.mk.inj found
  cases ending with
  | closed rest =>
      simp only [next, scan_append known suffix, Ending.fault?, Ending.rest, read_closed pieces (rest ++ suffix) rest]
  | _ => cases passed

end TextLiteral

theorem unblanked_append {cs rest : List Char} {c : Char} (found : unblanked cs = c :: rest) (suffix : List Char) :
    unblanked (cs ++ suffix) = c :: rest ++ suffix := by
  induction cs with
  | nil => cases found
  | cons d cs ih =>
      cases blank : Token.isBlank d with
      | true =>
          rw [unblanked, List.dropWhile_cons_of_pos blank] at found
          rw [List.cons_append, unblanked, List.dropWhile_cons_of_pos blank]
          exact ih found
      | false =>
          rw [Token.unblanked_of_solid blank] at found
          rw [List.cons_append, Token.unblanked_of_solid blank, ← List.cons_append, found]

theorem unblanked_append_of_nil {cs : List Char} (blank : unblanked cs = []) (suffix : List Char) :
    unblanked (cs ++ suffix) = unblanked suffix := by
  induction cs with
  | nil => rfl
  | cons c cs ih =>
      cases solid : Token.isBlank c with
      | true =>
          rw [unblanked, List.dropWhile_cons_of_pos solid] at blank
          rw [List.cons_append, unblanked, List.dropWhile_cons_of_pos solid]
          exact ih blank
      | false =>
          rw [Token.unblanked_of_solid solid] at blank
          cases blank

theorem Literal.append {scanned : Scanned String} {cs rest : List Char} (literal : Literal scanned cs rest)
    (suffix : List Char) : Literal scanned (cs ++ suffix) (rest ++ suffix) := by
  obtain ⟨inner, opened, found, passed⟩ := literal
  exact ⟨inner ++ suffix, unblanked_append opened suffix, TextLiteral.next_append found passed suffix, passed⟩

namespace Node

open Numeral (Stops)

mutual
theorem Spells.append (tree : Node) {cs rest suffix : List Char} (spelled : tree.Spells cs rest) (stops : Stops suffix) :
    tree.Spells (cs ++ suffix) (rest ++ suffix) :=
  match tree, spelled with
  | .null, spelled => unblanked_append spelled suffix
  | .bool true, spelled => unblanked_append spelled suffix
  | .bool false, spelled => unblanked_append spelled suffix
  | .number _, ⟨found, read, same⟩ => by
      refine ⟨found, ?_, same⟩
      obtain ⟨c, inner, first, _⟩ := Numeral.starts_of_next read
      rw [unblanked_append first, ← first]
      exact Numeral.next_append stops read
  | .text _, literal => Literal.append literal suffix
  | .list [] _, ⟨closed, inner, opened, ended⟩ =>
      ⟨closed, inner ++ suffix, unblanked_append opened suffix, unblanked_append ended suffix⟩
  | .list (first :: others) _, ⟨closed, inner, opened, after, spelled, more⟩ =>
      ⟨closed, inner ++ suffix, unblanked_append opened suffix, after ++ suffix, Spells.append first spelled stops,
        SpellsItems.append others more stops⟩
  | .object [] _, ⟨closed, inner, opened, ended⟩ =>
      ⟨closed, inner ++ suffix, unblanked_append opened suffix, unblanked_append ended suffix⟩
  | .object ((_, node) :: others) _, ⟨closed, inner, opened, colon, value, after, literal, marked, spelled, more⟩ =>
      ⟨closed, inner ++ suffix, unblanked_append opened suffix, colon ++ suffix, value ++ suffix, after ++ suffix,
        literal.append suffix, unblanked_append marked suffix, Spells.append node spelled stops,
        SpellsMembers.append others more stops⟩

theorem SpellsItems.append (items : List Node) {cs rest suffix : List Char} (spelled : SpellsItems items cs rest)
    (stops : Stops suffix) : SpellsItems items (cs ++ suffix) (rest ++ suffix) :=
  match items, spelled with
  | [], ended => unblanked_append ended suffix
  | item :: others, ⟨inner, after, comma, spelled, more⟩ =>
      ⟨inner ++ suffix, after ++ suffix, unblanked_append comma suffix, Spells.append item spelled stops,
        SpellsItems.append others more stops⟩

theorem SpellsMembers.append (members : List Member) {cs rest suffix : List Char}
    (spelled : SpellsMembers members cs rest) (stops : Stops suffix) :
    SpellsMembers members (cs ++ suffix) (rest ++ suffix) :=
  match members, spelled with
  | [], ended => unblanked_append ended suffix
  | (_, node) :: others, ⟨inner, colon, value, after, comma, literal, marked, spelled, more⟩ =>
      ⟨inner ++ suffix, colon ++ suffix, value ++ suffix, after ++ suffix, unblanked_append comma suffix,
        literal.append suffix, unblanked_append marked suffix, Spells.append node spelled stops,
        SpellsMembers.append others more stops⟩
end

end Node

end VisualEffects.Json
