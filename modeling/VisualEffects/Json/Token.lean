import VisualEffects.Json.Numeral
import VisualEffects.Json.TextLiteral

namespace VisualEffects.Json

/-! Tokens of a JSON text.

A broken lexeme becomes a token that carries its faults, and it is the last one: whoever reaches it, reading
or passing over, stops there.
-/

inductive Token where
  | openList
  | closeList
  | openObject
  | closeObject
  | colon
  | comma
  | null
  | bool (value : Bool)
  | brokenWord (fault : Fault)
  | number (scanned : Scanned Number)
  | text (scanned : Scanned String)
  | stray
deriving Inhabited

namespace Token

def isBlank (c : Char) : Bool := c == ' ' || c == '\n' || c == '\t' || c == '\r'

def word (token : Token) : List Char → List Char → Token × List Char
  | [], cs => (token, cs)
  | _ :: _, [] => (.brokenWord .endInValue, [])
  | letter :: letters, c :: cs => if c = letter then word token letters cs else (.brokenWord .noWord, [])

def numeral (cs : List Char) : Token × List Char :=
  match Numeral.next cs with
  | .ok (found, rest) => (.number (.whole found.value), rest)
  | .error left =>
      (.number ⟨.error (if left.isEmpty then .endInValue else .badNumber), .error .badNumber⟩, [])

/-- The token that starts with `c`, and what follows it. -/
def starting (c : Char) (cs : List Char) : Token × List Char :=
  if c = '[' then (.openList, cs)
  else if c = ']' then (.closeList, cs)
  else if c = '{' then (.openObject, cs)
  else if c = '}' then (.closeObject, cs)
  else if c = ':' then (.colon, cs)
  else if c = ',' then (.comma, cs)
  else if c = '"' then ((.text (TextLiteral.next cs).1), (TextLiteral.next cs).2)
  else if c = 'n' then word .null ['u', 'l', 'l'] cs
  else if c = 't' then word (.bool true) ['r', 'u', 'e'] cs
  else if c = 'f' then word (.bool false) ['a', 'l', 's', 'e'] cs
  else if c = '-' ∨ ('0' ≤ c ∧ c ≤ '9') then numeral (c :: cs)
  else (.stray, cs)

theorem word_shorter (token : Token) (letters cs : List Char) :
    (word token letters cs).2.length ≤ cs.length := by
  induction letters generalizing cs with
  | nil => exact Nat.le_refl _
  | cons letter letters ih =>
      cases cs with
      | nil => exact Nat.le_refl _
      | cons c cs =>
          simp only [word]
          split
          · exact Nat.le_succ_of_le (ih cs)
          · exact Nat.zero_le _

theorem numeral_shorter (c : Char) (cs : List Char) : (numeral (c :: cs)).2.length ≤ cs.length := by
  unfold numeral
  split
  · next read => exact Nat.le_of_lt_succ (Numeral.next_shorter read)
  · exact Nat.zero_le _

theorem ite_shorter {p : Prop} [Decidable p] {found other : Token × List Char} {length : Nat}
    (first : found.2.length ≤ length) (second : other.2.length ≤ length) :
    (if p then found else other).2.length ≤ length := by
  split
  · exact first
  · exact second

theorem starting_shorter (c : Char) (cs : List Char) : (starting c cs).2.length ≤ cs.length := by
  unfold starting
  -- brackets, colon and comma; then texts, words and numbers
  iterate 6 refine ite_shorter (Nat.le_refl _) ?_
  refine ite_shorter (TextLiteral.next_shorter cs) ?_
  iterate 3 refine ite_shorter (word_shorter _ _ cs) ?_
  exact ite_shorter (numeral_shorter c cs) (Nat.le_refl _)

/-- The tokens of a text, up to the first broken one. -/
def all : List Char → List Token
  | [] => []
  | c :: cs =>
      if isBlank c then all cs else (starting c cs).1 :: all (starting c cs).2
termination_by cs => cs.length
decreasing_by
  · simp
  · exact Nat.lt_succ_of_le (starting_shorter c cs)

end Token

end VisualEffects.Json
