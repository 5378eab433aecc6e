import ScheduledScaling.Decimal.Shortest
import ScheduledScaling.Keyed
import ScheduledScaling.Text.Numeral
/-!
JSON values. The members of an object are kept in ascending order of their keys, without
repetition; `Json.ofMembers` puts them so. Whole numbers of 64 bits, signed or not, are integers;
all others are doubles.
-/
namespace ScheduledScaling

inductive JsonNumber where
  | integer (n : Int)
  | double (negative : Bool) (magnitude : Decimal.Double)
  deriving DecidableEq, Repr, Inhabited

namespace JsonNumber

def fitsWord (n : Int) : Bool := Word.low64 ≤ n && n < Word.bound64

/-- A number of 64 bits with a sign; negative zero is a double, and so are those too low for a
word. -/
def ofWord (negative : Bool) (size : Nat) : JsonNumber :=
  let n : Int := if negative then -size else size
  if fitsWord n && !(negative && size == 0) then integer n
  else double negative ((Decimal.nearest? size 0).getD .zero)

def signText (negative : Bool) : String := if negative then "-" else ""

/-- A number in a document. -/
def text : JsonNumber → String
  | integer n => toString n
  | double negative magnitude =>
    let (digits, exponent) := magnitude.shortest
    signText negative ++ Decimal.compactText digits exponent

end JsonNumber

inductive Json where
  | null
  | bool (b : Bool)
  | number (n : JsonNumber)
  | string (s : String)
  | array (items : List Json)
  | object (members : List (String × Json))
  deriving Repr, Inhabited

namespace Json

def int (n : Int) : Json := .number (.integer n)

def nat (n : Nat) : Json := .number (.integer n)

/-- An object of some members; of two with one key the later counts. -/
def ofMembers (members : List (String × Json)) : Json :=
  object (Keyed.ofList members)

/-- An object of the members that have a value. -/
def record (members : List (String × Option Json)) : Json :=
  ofMembers (members.filterMap fun (k, v) => v.map (k, ·))

/-- The member of an object. -/
def get? (key : String) : Json → Option Json
  | object members => Keyed.get? key members
  | _ => none

def members : Json → List (String × Json)
  | object members => members
  | _ => []

def items : Json → List Json
  | array items => items
  | _ => []

def asString? : Json → Option String
  | string s => some s
  | _ => none

def asBool? : Json → Option Bool
  | bool b => some b
  | _ => none

def asInt? : Json → Option Int
  | number (.integer n) => some n
  | _ => none

def isNull : Json → Bool
  | null => true
  | _ => false

/-! ## Text -/

def hexDigit (n : Nat) : Char := Char.ofNat (if n < 10 then 48 + n else 87 + n)

/-- A character inside a JSON string. -/
def escaped (c : Char) : List Char :=
  if c = '"' then ['\\', '"']
  else if c = '\\' then ['\\', '\\']
  else if c = '\n' then ['\\', 'n']
  else if c = '\r' then ['\\', 'r']
  else if c = '\t' then ['\\', 't']
  else if c = '\x08' then ['\\', 'b']
  else if c = '\x0c' then ['\\', 'f']
  else if c.toNat < 32 then
    ['\\', 'u', '0', '0', hexDigit (c.toNat / 16), hexDigit (c.toNat % 16)]
  else [c]

def quoted (s : String) : String := String.ofList ('"' :: s.toList.flatMap escaped ++ ['"'])

mutual

/-- The text of a value without blanks. -/
def text : Json → String
  | null => "null"
  | bool b => if b then "true" else "false"
  | number n => n.text
  | string s => quoted s
  | array items => "[" ++ String.intercalate "," (itemTexts items) ++ "]"
  | object members => "\x7b" ++ String.intercalate "," (memberTexts members) ++ "\x7d"

def itemTexts : List Json → List String
  | [] => []
  | item :: rest => text item :: itemTexts rest

def memberTexts : List (String × Json) → List String
  | [] => []
  | (key, value) :: rest => (quoted key ++ ":" ++ text value) :: memberTexts rest

end

end Json

end ScheduledScaling
