import VisualEffects.Json.Fault

namespace VisualEffects.Json

/-! Text literals: what stands between two quotes, and the text it is read as.

A literal is first cut into pieces, single characters and 16-bit units from `\u` escapes.  This much is
needed to find its end.  Units are joined to characters only when the literal is read, so a literal that is
passed over may hold surrogates without a partner.
-/

/-- What a lexeme is read as, and whether it can be passed over unread. -/
structure Scanned (α : Type) where
  value : Except Fault α
  passed : Except Fault Unit
deriving Inhabited

/-- A lexeme that can be passed over. -/
def Scanned.whole (value : Except Fault α) : Scanned α := ⟨value, .ok ()⟩

namespace TextLiteral

inductive Piece where
  | char (c : Char)
  | unit (n : Nat)
deriving DecidableEq, Repr

/-- How a literal ends: at its closing quote, or at the first character that cannot stand in it. -/
inductive Ending where
  | closed (rest : List Char)
  | endOfText
  | control
  | escape
  | hexDigits
deriving DecidableEq, Repr

def escaped? (c : Char) : Option Char :=
  if c = '"' then some '"'
  else if c = '\\' then some '\\'
  else if c = '/' then some '/'
  else if c = 'b' then some '\x08'
  else if c = 'f' then some '\x0c'
  else if c = 'n' then some '\n'
  else if c = 'r' then some '\r'
  else if c = 't' then some '\t'
  else none

def utf8Length (cs : List Char) : Nat := cs.foldl (fun total c => total + c.utf8Size) 0

/-- Why a unit cannot be read here: four more bytes must be there, and then they must be digits. -/
def brokenUnit (cs : List Char) : Ending :=
  if utf8Length cs < 4 then .endOfText else .hexDigits

/-- The pieces of a literal after its opening quote. -/
def scan : List Char → List Piece × Ending
  | [] => ([], .endOfText)
  | '"' :: rest => ([], .closed rest)
  | ['\\'] => ([], .endOfText)
  | '\\' :: 'u' :: a :: b :: c :: d :: rest =>
      match Text.Hex.value? [a, b, c, d] with
      | some n => (.unit n :: (scan rest).1, (scan rest).2)
      | none => ([], brokenUnit (a :: b :: c :: d :: rest))
  | '\\' :: c :: rest =>
      match escaped? c with
      | some plain => (.char plain :: (scan rest).1, (scan rest).2)
      | none => if c = 'u' then ([], brokenUnit rest) else ([], .escape)
  | c :: rest =>
      if c.toNat < 0x20 then ([], .control) else (.char c :: (scan rest).1, (scan rest).2)

def isHighSurrogate (n : Nat) : Bool := 0xd800 ≤ n && n ≤ 0xdbff

def isLowSurrogate (n : Nat) : Bool := 0xdc00 ≤ n && n ≤ 0xdfff

def joined (high low : Nat) : Char :=
  Char.ofNat (0x10000 + (high - 0xd800) * 0x400 + (low - 0xdc00))

def Ending.fault? : Ending → Option Fault
  | closed _ => none
  | endOfText => some .endInText
  | control => some .controlCharacter
  | escape => some .badEscape
  | hexDigits => some .badEscape

/-- The fault of a high surrogate after which a literal ends: only an escape of a unit could follow it. -/
def Ending.faultAfterHigh : Ending → Fault
  | endOfText => .endInText
  | hexDigits => .badEscape
  | closed _ => .unpairedSurrogate
  | control => .unpairedSurrogate
  | escape => .unpairedSurrogate

/-- The text that pieces are read as; the first fault in reading order wins. -/
def read : List Piece → Ending → Except Fault (List Char)
  | [], ending =>
      match ending.fault? with
      | none => .ok []
      | some fault => .error fault
  | .char c :: rest, ending => (read rest ending).map (c :: ·)
  | [.unit high], ending =>
      if isLowSurrogate high then .error .loneSurrogate
      else if isHighSurrogate high then .error ending.faultAfterHigh
      else (read [] ending).map (Char.ofNat high :: ·)
  | .unit high :: .char c :: rest, ending =>
      if isLowSurrogate high then .error .loneSurrogate
      else if isHighSurrogate high then .error .unpairedSurrogate
      else (read (.char c :: rest) ending).map (Char.ofNat high :: ·)
  | .unit high :: .unit low :: rest, ending =>
      if isLowSurrogate high then .error .loneSurrogate
      else if !isHighSurrogate high then (read (.unit low :: rest) ending).map (Char.ofNat high :: ·)
      else if isLowSurrogate low then (read rest ending).map (joined high low :: ·)
      else .error .loneSurrogate

/-- What follows a literal; nothing is left after one that is broken. -/
def Ending.rest : Ending → List Char
  | closed rest => rest
  | _ => []

/-- The literal after an opening quote, and what follows it. -/
def next (cs : List Char) : Scanned String × List Char :=
  let (pieces, ending) := scan cs
  let passed := match ending.fault? with
    | none => .ok ()
    | some fault => .error fault
  (⟨(read pieces ending).map String.ofList, passed⟩, ending.rest)

theorem rest_brokenUnit (cs : List Char) : (brokenUnit cs).rest = [] := by
  unfold brokenUnit
  split <;> rfl

theorem scan_shorter (cs : List Char) : (scan cs).2.rest.length ≤ cs.length := by
  fun_induction scan cs with
  | case1 => simp [Ending.rest]
  | case2 rest => simp [Ending.rest]
  | case3 => simp [Ending.rest]
  | case4 a b c d rest n known ih => simp only [List.length_cons]; omega
  | case5 a b c d rest unknown => simp [rest_brokenUnit]
  | case6 c rest _ plain known ih => simp only [List.length_cons]; omega
  | case7 rest => simp [rest_brokenUnit]
  | case8 c rest => simp [Ending.rest]
  | case9 c rest => simp [Ending.rest]
  | case10 c rest _ _ ih => simp only [List.length_cons]; omega

theorem next_shorter (cs : List Char) : (next cs).2.length ≤ cs.length := scan_shorter cs

end TextLiteral

end VisualEffects.Json
