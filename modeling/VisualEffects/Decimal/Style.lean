import VisualEffects.Decimal.Shortest

namespace VisualEffects.Decimal

/-! How a decimal number is laid out as text.

A style says between which exponents the digits stand in place, how the exponent is written elsewhere, and
which way a tie between two shortest decimals goes.  Numbers in place always keep a digit after the point.
-/

structure Style where
  /-- The least exponent of the first digit that is written in place. -/
  least : Int
  /-- The greatest exponent of the first digit that is written in place. -/
  greatest : Int
  /-- Whether an exponent that is not negative has a plus sign. -/
  plusSign : Bool
  tie : Tie
deriving DecidableEq, Repr

namespace Style

def naturalDigits (n : Nat) : List Char := Nat.toDigits 10 n

def integerDigits (sign : Bool) (n : Int) : List Char :=
  if n < 0 then '-' :: naturalDigits (-n).toNat
  else if sign then '+' :: naturalDigits n.toNat
  else naturalDigits n.toNat

/-- The digits of `decimal` in place, or with an exponent when its first digit stands too far away from
the point. -/
def layOut (style : Style) (decimal : Decimal) : List Char :=
  let digits := naturalDigits decimal.digits
  let count : Int := digits.length
  let first := count + decimal.exponent - 1
  if style.least ≤ first ∧ first ≤ style.greatest then
    if 0 ≤ decimal.exponent then digits ++ List.replicate decimal.exponent.toNat '0' ++ ['.', '0']
    else if 0 ≤ first then
      digits.take (first + 1).toNat ++ '.' :: digits.drop (first + 1).toNat
    else '0' :: '.' :: List.replicate (-first - 1).toNat '0' ++ digits
  else
    let fraction := digits.drop 1
    digits.take 1 ++ (if fraction.isEmpty then [] else '.' :: fraction) ++
      'e' :: integerDigits style.plusSign first

/-- A double as text: the shortest digits that read back the same, and names for what is not finite. -/
def render (style : Style) (x : Float) : List Char :=
  if x.isNaN then ['N', 'a', 'N']
  else
    let size := if x.isInf then ['i', 'n', 'f'] else style.layOut ((Binary.ofFloat x).shortest style.tie)
    if x.toBits < 0x8000000000000000 then size else '-' :: size

end Style

end VisualEffects.Decimal
