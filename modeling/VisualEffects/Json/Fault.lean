import VisualEffects.Decimal.Style
import VisualEffects.Text.Quoted

namespace VisualEffects.Json

/-! What can be wrong with a JSON text, and how each fault is worded.

The first group are faults of the syntax, the second are values that do not fit where they stand.  A fault shows
the number that does not fit.  A number without fraction and exponent is an integer as long as it fits 64 bits;
every other number is a double, which is written with its shortest digits.
-/

inductive Number where
  | integer (value : Int)
  | real (value : Float)
deriving DecidableEq, Inhabited

/-- Doubles stand in place for decimal exponents from -5 to 15, and an exponent carries its sign. -/
def numberStyle : Decimal.Style := ⟨-5, 15, true, .toEven⟩

namespace Number

def toFloat : Number → Float
  | integer value => Float.ofInt value
  | real value => value

def render : Number → List Char
  | integer value => Decimal.Style.integerDigits false value
  | real value => numberStyle.render value

end Number

/-- A value as a fault describes it. -/
inductive Found where
  | null
  | bool (value : Bool)
  | number (value : Number)
  | text (value : String)
  | list
  | object
deriving DecidableEq, Inhabited

inductive Fault where
  | endInValue
  | endInList
  | endInObject
  | endInText
  | noColon
  | noListSeparator
  | noObjectSeparator
  | noWord
  | noValue
  | badEscape
  | badNumber
  | numberTooLarge
  | controlCharacter
  | keyNotText
  | loneSurrogate
  | unpairedSurrogate
  | trailingComma
  | trailingCharacters
  | nestedTooDeep
  | mismatch (found : Found) (expected : String)
  | unacceptable (found : Found) (expected : String)
  | wrongLength (length : Nat) (expected : String)
  | unknownName (name : String) (known : List String)
  | repeatedField (name : String)
  | missingField (name : String)
  | noColorForm
  | stated (reason : String)
deriving DecidableEq, Inhabited

private def inBackticks (text : String) : String := "`" ++ text ++ "`"

def Found.describe : Found → String
  | null => "null"
  | bool value => "boolean " ++ inBackticks (if value then "true" else "false")
  | number (.integer value) => "integer " ++ inBackticks (String.ofList (Number.integer value).render)
  | number (.real value) => "floating point " ++ inBackticks (String.ofList (Number.real value).render)
  | text value => "string " ++ Text.quoted value
  | list => "sequence"
  | object => "map"

/-- The names that would have been known: two are joined by "or", more are listed. -/
def expectedNames : List String → String
  | [] => "there are no variants"
  | [only] => "expected " ++ inBackticks only
  | [left, right] => "expected " ++ inBackticks left ++ " or " ++ inBackticks right
  | names => "expected one of " ++ ", ".intercalate (names.map inBackticks)

def Fault.message : Fault → String
  | endInValue => "EOF while parsing a value"
  | endInList => "EOF while parsing a list"
  | endInObject => "EOF while parsing an object"
  | endInText => "EOF while parsing a string"
  | noColon => "expected " ++ inBackticks ":"
  | noListSeparator => "expected " ++ inBackticks "," ++ " or " ++ inBackticks "]"
  | noObjectSeparator => "expected " ++ inBackticks "," ++ " or " ++ inBackticks "\x7d"
  | noWord => "expected ident"
  | noValue => "expected value"
  | badEscape => "invalid escape"
  | badNumber => "invalid number"
  | numberTooLarge => "number out of range"
  | controlCharacter => "control character (\\u0000-\\u001F) found while parsing a string"
  | keyNotText => "key must be a string"
  | loneSurrogate => "lone leading surrogate in hex escape"
  | unpairedSurrogate => "unexpected end of hex escape"
  | trailingComma => "trailing comma"
  | trailingCharacters => "trailing characters"
  | nestedTooDeep => "recursion limit exceeded"
  | mismatch found expected => "invalid type: " ++ found.describe ++ ", expected " ++ expected
  | unacceptable found expected => "invalid value: " ++ found.describe ++ ", expected " ++ expected
  | wrongLength length expected => "invalid length " ++ toString length ++ ", expected " ++ expected
  | unknownName name known => "unknown variant " ++ inBackticks name ++ ", " ++ expectedNames known
  | repeatedField name => "duplicate field " ++ inBackticks name
  | missingField name => "missing field " ++ inBackticks name
  | noColorForm => "data did not match any variant of untagged enum Repr"
  | stated reason => reason

end VisualEffects.Json
