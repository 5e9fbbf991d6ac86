import VisualEffects.Proofs.Documents

namespace VisualEffects

/-! Written values can be told apart.

The text of a value shows where the value ends, so equal texts hold equal values whatever follows them.  Of numbers this
takes that their own texts differ.  Both ways of writing a value are one, with or without blanks between its parts.
-/

namespace Json

open Numeral (Stops stops_cons)

theorem Token.ends_of_blank {c : Char} (blank : isBlank c = true) :
    Numeral.digit? c = none ∧ c ≠ '.' ∧ c ≠ 'e' ∧ c ≠ 'E' := by
  simp only [isBlank, Bool.or_eq_true, beq_iff_eq] at blank
  rcases blank with ((rfl | rfl) | rfl) | rfl <;> decide

namespace Value

/-- What is written between the parts of a value: before an item or a closing bracket at a nesting level, and after a
colon. -/
structure Spacing where
  gap : Nat → List Char
  afterColon : List Char
  blank : ∀ level, ∀ c ∈ gap level, Token.isBlank c = true

namespace Spacing

def tight : Spacing := ⟨fun _ => [], [], fun _ => List.forall_mem_nil _⟩

def lines : Spacing := ⟨newLine, [' '], isBlank_newLine⟩

variable (spacing : Spacing)

theorem head_gap (level : Nat) {c d : Char} {rest others : List Char}
    (same : spacing.gap level ++ c :: rest = d :: others) : Token.isBlank d = true ∨ d = c := by
  have blank := spacing.blank level
  cases gap : spacing.gap level with
  | nil =>
      rw [gap] at same
      exact .inr (List.cons.inj same).1.symm
  | cons e gap' =>
      rw [gap] at same blank
      exact .inl ((List.cons.inj same).1 ▸ blank e List.mem_cons_self)

theorem gap_ne (level : Nat) {c d : Char} (solid : Token.isBlank d = false) (other : d ≠ c) (rest others : List Char) :
    spacing.gap level ++ c :: rest ≠ d :: others := by
  intro same
  rcases spacing.head_gap level same with blank | same
  · exact Bool.noConfusion (solid.symm.trans blank)
  · exact other same

theorem stops_gap (level : Nat) {c : Char} (ends : Numeral.digit? c = none ∧ c ≠ '.' ∧ c ≠ 'e' ∧ c ≠ 'E')
    (rest : List Char) : Stops (spacing.gap level ++ c :: rest) := by
  intro d first
  obtain ⟨others, same⟩ := List.head?_eq_some_iff.mp first
  rcases spacing.head_gap level same with blank | rfl
  · exact Token.ends_of_blank blank
  · exact ends

end Spacing

mutual
/-- A value written with some spacing. -/
def spaced (spacing : Spacing) (level : Nat) : Value → List Char
  | .null => ['n', 'u', 'l', 'l']
  | .bool value => word value
  | .number value => value.render
  | .text value => writtenText value
  | .list [] => ['[', ']']
  | .list (first :: rest) =>
      '[' :: (spacing.gap (level + 1) ++ (first.spaced spacing (level + 1) ++ spacedItems spacing level rest))
  | .object [] => ['{', '}']
  | .object ((key, value) :: rest) =>
      '{' :: (spacing.gap (level + 1) ++ (writtenText key ++ ':' :: (spacing.afterColon ++
        (value.spaced spacing (level + 1) ++ spacedMembers spacing level rest))))

def spacedItems (spacing : Spacing) (level : Nat) : List Value → List Char
  | [] => spacing.gap level ++ [']']
  | item :: rest =>
      ',' :: (spacing.gap (level + 1) ++ (item.spaced spacing (level + 1) ++ spacedItems spacing level rest))

def spacedMembers (spacing : Spacing) (level : Nat) : List (String × Value) → List Char
  | [] => spacing.gap level ++ ['}']
  | (key, value) :: rest =>
      ',' :: (spacing.gap (level + 1) ++ (writtenText key ++ ':' :: (spacing.afterColon ++
        (value.spaced spacing (level + 1) ++ spacedMembers spacing level rest))))
end

mutual
theorem spaced_tight (level : Nat) (value : Value) : value.spaced .tight level = value.compact :=
  match value with
  | .null | .bool _ | .number _ | .text _ | .list [] | .object [] => rfl
  | .list (first :: rest) => by
      rw [spaced, compact, spaced_tight (level + 1) first, spacedItems_tight level rest]
      rfl
  | .object ((key, first) :: rest) => by
      rw [spaced, compact, spaced_tight (level + 1) first, spacedMembers_tight level rest]
      simp [Spacing.tight]

theorem spacedItems_tight (level : Nat) (items : List Value) : spacedItems .tight level items = compactItems items :=
  match items with
  | [] => rfl
  | item :: rest => by
      rw [spacedItems, compactItems, spaced_tight (level + 1) item, spacedItems_tight level rest]
      rfl

theorem spacedMembers_tight (level : Nat) (members : List (String × Value)) :
    spacedMembers .tight level members = compactMembers members :=
  match members with
  | [] => rfl
  | (key, value) :: rest => by
      rw [spacedMembers, compactMembers, spaced_tight (level + 1) value, spacedMembers_tight level rest]
      simp [Spacing.tight]
end

mutual
theorem spaced_lines (level : Nat) (value : Value) : value.spaced .lines level = value.indented level :=
  match value with
  | .null | .bool _ | .number _ | .text _ | .list [] | .object [] => rfl
  | .list (first :: rest) => by
      rw [spaced, indented, spaced_lines (level + 1) first, spacedItems_lines level rest]
      simp [Spacing.lines]
  | .object ((key, first) :: rest) => by
      rw [spaced, indented, spaced_lines (level + 1) first, spacedMembers_lines level rest]
      simp [Spacing.lines]

theorem spacedItems_lines (level : Nat) (items : List Value) :
    spacedItems .lines level items = indentedItems level items :=
  match items with
  | [] => rfl
  | item :: rest => by
      rw [spacedItems, indentedItems, spaced_lines (level + 1) item, spacedItems_lines level rest]
      simp [Spacing.lines]

theorem spacedMembers_lines (level : Nat) (members : List (String × Value)) :
    spacedMembers .lines level members = indentedMembers level members :=
  match members with
  | [] => rfl
  | (key, value) :: rest => by
      rw [spacedMembers, indentedMembers, spaced_lines (level + 1) value, spacedMembers_lines level rest]
      simp [Spacing.lines]
end

inductive Form where
  | null
  | bool
  | number
  | text
  | list
  | object

def form : Value → Form
  | null => .null
  | bool _ => .bool
  | number _ => .number
  | text _ => .text
  | list _ => .list
  | object _ => .object

/-- The form that the first character of a written value shows. -/
def Form.ofLead? (c : Char) : Option Form :=
  if c = 'n' then some .null
  else if c = 't' ∨ c = 'f' then some .bool
  else if c = '"' then some .text
  else if c = '[' then some .list
  else if c = '{' then some .object
  else if c = '-' ∨ ('0' ≤ c ∧ c ≤ '9') then some .number
  else none

theorem Form.ofLead?_of_starts {c : Char} (starts : c = '-' ∨ ('0' ≤ c ∧ c ≤ '9')) : ofLead? c = some .number := by
  have other (d : Char) (foreign : ¬ (d = '-' ∨ ('0' ≤ d ∧ d ≤ '9'))) : c ≠ d := by
    rintro rfl
    exact foreign starts
  simp only [ofLead?, other 'n' (by decide), other 't' (by decide), other 'f' (by decide), other '"' (by decide),
    other '[' (by decide), other '{' (by decide), starts, or_self, if_true, if_false]

/-- Whether two lists hold numbers that are written differently where they differ. -/
structure ToldApart (first second : List Number) : Prop where
  written : ∀ n ∈ first, n.IsWritten
  written' : ∀ n ∈ second, n.IsWritten
  eq_of_render : ∀ n ∈ first, ∀ m ∈ second, n.render = m.render → n = m

theorem ToldApart.of_append {first second others others' : List Number}
    (apart : ToldApart (first ++ others) (second ++ others')) : ToldApart first second ∧ ToldApart others others' := by
  obtain ⟨written, written', eq_of_render⟩ := apart
  rw [List.forall_mem_append] at written written'
  constructor
  · refine ⟨written.1, written'.1, fun n left m right => eq_of_render n ?_ m ?_⟩
    · exact List.mem_append_left _ left
    · exact List.mem_append_left _ right
  · refine ⟨written.2, written'.2, fun n left m right => eq_of_render n ?_ m ?_⟩
    · exact List.mem_append_right _ left
    · exact List.mem_append_right _ right

variable {spacing : Spacing} {level : Nat} {after after' : List Char}

theorem exists_lead (value : Value) (written : ∀ n ∈ value.numbers, n.IsWritten) (spacing : Spacing) (level : Nat) :
    ∃ c rest, value.spaced spacing level = c :: rest ∧ Form.ofLead? c = some value.form := by
  match value with
  | .null => exact ⟨_, _, rfl, rfl⟩
  | .bool true | .bool false => exact ⟨_, _, rfl, rfl⟩
  | .text _ => exact ⟨_, _, rfl, rfl⟩
  | .list [] | .list (_ :: _) => exact ⟨_, _, rfl, rfl⟩
  | .object [] | .object (_ :: _) => exact ⟨_, _, rfl, rfl⟩
  | .number n =>
      obtain ⟨_, next, _⟩ := Number.next_render (written n (List.mem_singleton_self n)) Numeral.stops_nil
      obtain ⟨c, rest, same, starts⟩ := Numeral.starts_of_next next
      rw [List.append_nil] at same
      exact ⟨c, rest, same, Form.ofLead?_of_starts starts⟩

theorem form_eq_of_spaced {value other : Value} (apart : ToldApart value.numbers other.numbers)
    (same : value.spaced spacing level ++ after = other.spaced spacing level ++ after') : value.form = other.form := by
  obtain ⟨c, rest, starts, shown⟩ := value.exists_lead apart.written spacing level
  obtain ⟨d, rest', starts', shown'⟩ := other.exists_lead apart.written' spacing level
  rw [starts, starts'] at same
  obtain ⟨rfl, _⟩ := List.cons.inj same
  exact Option.some.inj (shown.symm.trans shown')

theorem writtenText_inj {text other : String} (same : writtenText text ++ after = writtenText other ++ after') :
    text = other ∧ after = after' := by
  simp only [writtenText, List.cons_append, List.append_assoc, List.nil_append, List.cons.injEq, true_and] at same
  have read := TextLiteral.next_writtenText text after
  rw [same, TextLiteral.next_writtenText] at read
  obtain ⟨scanned, rfl⟩ := Prod.mk.inj read
  obtain ⟨value, _⟩ := Scanned.mk.inj scanned
  exact ⟨(Except.ok.inj value).symm, rfl⟩

theorem render_inj {n m : Number} (apart : ToldApart [n] [m]) (stops : Stops after) (stops' : Stops after')
    (same : n.render ++ after = m.render ++ after') : n = m ∧ after = after' := by
  have left := List.mem_singleton_self n
  have right := List.mem_singleton_self m
  obtain ⟨_, next, _⟩ := Number.next_render (apart.written n left) stops
  obtain ⟨_, next', _⟩ := Number.next_render (apart.written' m right) stops'
  rw [same, next'] at next
  obtain ⟨_, rfl⟩ := Prod.mk.inj (Except.ok.inj next)
  exact ⟨apart.eq_of_render n left m right (List.append_cancel_right same), rfl⟩

theorem stops_spacedItems (items : List Value) : Stops (spacedItems spacing level items ++ after) := by
  cases items with
  | nil =>
      rw [spacedItems, List.append_assoc]
      exact spacing.stops_gap level (by decide) _
  | cons item rest => exact stops_cons (by decide) _

theorem stops_spacedMembers (members : List (String × Value)) :
    Stops (spacedMembers spacing level members ++ after) := by
  cases members with
  | nil =>
      rw [spacedMembers, List.append_assoc]
      exact spacing.stops_gap level (by decide) _
  | cons member rest => exact stops_cons (by decide) _

theorem gap_spaced_ne (value : Value) (written : ∀ n ∈ value.numbers, n.IsWritten) (level : Nat)
    (rest others : List Char) : spacing.gap level ++ (value.spaced spacing level ++ rest) ≠ ']' :: others := by
  obtain ⟨c, inner, starts, shown⟩ := value.exists_lead written spacing level
  have other : ']' ≠ c := by
    rintro rfl
    cases shown
  rw [starts]
  exact spacing.gap_ne level (by decide) other _ _

mutual
/-- Where two texts of values are the same, the values are, and so is what follows them. -/
theorem spaced_inj (value other : Value) (level : Nat) {after after' : List Char}
    (apart : ToldApart value.numbers other.numbers) (stops : Stops after) (stops' : Stops after')
    (same : value.spaced spacing level ++ after = other.spaced spacing level ++ after') :
    value = other ∧ after = after' :=
  match value, other, form_eq_of_spaced apart same with
  | .null, .null, _ => ⟨rfl, List.append_cancel_left same⟩
  | .bool true, .bool true, _ | .bool false, .bool false, _ => ⟨rfl, List.append_cancel_left same⟩
  | .bool true, .bool false, _ | .bool false, .bool true, _ => by cases same
  | .number n, .number m, _ => (render_inj apart stops stops' same).imp_left (congrArg number)
  | .text _, .text _, _ => (writtenText_inj same).imp_left (congrArg _)
  | .list [], .list [], _ | .object [], .object [], _ => ⟨rfl, List.append_cancel_left same⟩
  | .list [], .list (item :: rest), _ => by
      obtain ⟨here, _⟩ := List.forall_mem_append.mp apart.written'
      simp only [spaced, List.cons_append, List.append_assoc, List.cons.injEq, true_and] at same
      exact absurd same.symm (item.gap_spaced_ne here (level + 1) _ _)
  | .list (item :: rest), .list [], _ => by
      obtain ⟨here, _⟩ := List.forall_mem_append.mp apart.written
      simp only [spaced, List.cons_append, List.append_assoc, List.cons.injEq, true_and] at same
      exact absurd same (item.gap_spaced_ne here (level + 1) _ _)
  | .list (first :: rest), .list (first' :: rest'), _ => by
      -- after its bracket a list goes on as its items do after a comma
      have items := congrArg (List.cons ',') (List.cons.inj same).2
      exact (spacedItems_inj (first :: rest) (first' :: rest') level apart items).imp_left (congrArg list)
  | .object [], .object (member :: rest), _ => by
      simp only [spaced, writtenText, List.cons_append, List.append_assoc, List.cons.injEq, true_and] at same
      exact absurd same.symm (spacing.gap_ne (level + 1) (by decide) (by decide) _ _)
  | .object (member :: rest), .object [], _ => by
      simp only [spaced, writtenText, List.cons_append, List.append_assoc, List.cons.injEq, true_and] at same
      exact absurd same (spacing.gap_ne (level + 1) (by decide) (by decide) _ _)
  | .object (first :: rest), .object (first' :: rest'), _ => by
      have members := congrArg (List.cons ',') (List.cons.inj same).2
      exact (spacedMembers_inj (first :: rest) (first' :: rest') level apart members).imp_left (congrArg object)

theorem spacedItems_inj (items others : List Value) (level : Nat) {after after' : List Char}
    (apart : ToldApart (numbersItems items) (numbersItems others))
    (same : spacedItems spacing level items ++ after = spacedItems spacing level others ++ after') :
    items = others ∧ after = after' :=
  match items, others with
  | [], [] => ⟨rfl, List.append_cancel_left same⟩
  | [], item :: rest => by
      rw [spacedItems, List.append_assoc] at same
      exact absurd same (spacing.gap_ne level (by decide) (by decide) _ _)
  | item :: rest, [] => by
      rw [spacedItems, spacedItems, List.append_assoc] at same
      exact absurd same.symm (spacing.gap_ne level (by decide) (by decide) _ _)
  | first :: rest, first' :: rest' => by
      obtain ⟨here, there⟩ := ToldApart.of_append apart
      simp only [spacedItems, List.cons_append, List.append_assoc, List.cons.injEq, true_and,
        List.append_cancel_left_eq] at same
      obtain ⟨rfl, left⟩ :=
        spaced_inj first first' (level + 1) here (stops_spacedItems rest) (stops_spacedItems rest') same
      obtain ⟨rfl, rfl⟩ := spacedItems_inj rest rest' level there left
      exact ⟨rfl, rfl⟩

theorem spacedMembers_inj (members others : List (String × Value)) (level : Nat) {after after' : List Char}
    (apart : ToldApart (numbersMembers members) (numbersMembers others))
    (same : spacedMembers spacing level members ++ after = spacedMembers spacing level others ++ after') :
    members = others ∧ after = after' :=
  match members, others with
  | [], [] => ⟨rfl, List.append_cancel_left same⟩
  | [], member :: rest => by
      rw [spacedMembers, List.append_assoc] at same
      exact absurd same (spacing.gap_ne level (by decide) (by decide) _ _)
  | member :: rest, [] => by
      rw [spacedMembers, spacedMembers, List.append_assoc] at same
      exact absurd same.symm (spacing.gap_ne level (by decide) (by decide) _ _)
  | (key, first) :: rest, (key', first') :: rest' => by
      obtain ⟨here, there⟩ := ToldApart.of_append apart
      simp only [spacedMembers, List.cons_append, List.append_assoc, List.cons.injEq, true_and,
        List.append_cancel_left_eq] at same
      obtain ⟨rfl, same⟩ := writtenText_inj same
      simp only [List.cons.injEq, true_and, List.append_cancel_left_eq] at same
      obtain ⟨rfl, left⟩ :=
        spaced_inj first first' (level + 1) here (stops_spacedMembers rest) (stops_spacedMembers rest') same
      obtain ⟨rfl, rfl⟩ := spacedMembers_inj rest rest' level there left
      exact ⟨rfl, rfl⟩
end

theorem eq_of_spaced {value other : Value} (apart : ToldApart value.numbers other.numbers)
    (same : value.spaced spacing level = other.spaced spacing level) : value = other :=
  (spaced_inj value other level apart Numeral.stops_nil Numeral.stops_nil (congrArg (· ++ []) same)).1

theorem line_inj {value other : Value} (apart : ToldApart value.numbers other.numbers) :
    value.line = other.line ↔ value = other := by
  refine ⟨fun same => ?_, congrArg line⟩
  have letters := String.ofList_injective same
  rw [← spaced_tight 0 value, ← spaced_tight 0 other] at letters
  exact eq_of_spaced apart letters

theorem page_inj {value other : Value} (apart : ToldApart value.numbers other.numbers) :
    value.page = other.page ↔ value = other := by
  refine ⟨fun same => ?_, congrArg page⟩
  have letters := String.ofList_injective same
  rw [← spaced_lines 0 value, ← spaced_lines 0 other] at letters
  exact eq_of_spaced apart letters

theorem numbersItems_eq (items : List Value) : numbersItems items = items.flatMap numbers := by
  induction items with
  | nil => rfl
  | cons item rest ih => rw [numbersItems, ih, List.flatMap_cons]

theorem numbersMembers_eq (members : List (String × Value)) :
    numbersMembers members = members.flatMap (·.2.numbers) := by
  induction members with
  | nil => rfl
  | cons member rest ih => rw [numbersMembers, ih, List.flatMap_cons]

end Value

namespace Number

open Decimal.Style (naturalDigits)

theorem render_natural_inj {n m : Nat} (same : (integer n).render = (integer m).render) : n = m := by
  have value (n : Nat) : Nat.ofDigitChars 10 (naturalDigits n) 0 = n :=
    Nat.ofDigitChars_toDigits (by decide) (by decide)
  rw [render_natural, render_natural] at same
  rw [← value n, same, value m]

theorem exists_mark_layOut (style : Decimal.Style) (decimal : Decimal) :
    ∃ c ∈ style.layOut decimal, c.isDigit = false := by
  unfold Decimal.Style.layOut
  dsimp only
  split
  · split
    · exact ⟨'.', by simp, rfl⟩
    · split <;> exact ⟨'.', by simp, rfl⟩
  · exact ⟨'e', by simp, rfl⟩

theorem render_natural_ne_real {n : Nat} {x : Float} (finite : x.isFinite = true) :
    (integer n).render ≠ (real x).render := by
  obtain ⟨number, bounded⟩ := size_of_isFinite finite
  obtain ⟨c, inside, mark⟩ := exists_mark_layOut numberStyle ((Decimal.Binary.ofFloat x).shortest numberStyle.tie)
  intro same
  have inside : c ∈ (real x).render := by
    simp only [render, Decimal.Style.render, number, bounded, Bool.false_eq_true, if_false]
    split
    · exact inside
    · exact List.mem_cons_of_mem _ inside
  rw [← same, render_natural] at inside
  exact Bool.noConfusion (mark.symm.trans (Decimal.Style.isDigit_naturalDigits inside))

end Number

end Json

end VisualEffects
