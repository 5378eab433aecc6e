import ScheduledScaling.Json.Value
import ScheduledScaling.Text.Quoted
import ScheduledScaling.Yaml.Tag
/-!
Values of a YAML text, as far as a reader of whole numbers looks into them. A scalar with a tag of
a type of its own has to be what its tag says. Any other plain scalar is a number, a truth value or
nothing if it looks like one, and all else is a string. A number in decimals that begins with a
zero it does not need is a string too.
-/
namespace ScheduledScaling.Yaml

/-! ## Numbers and other words -/

/-- The value of a digit in bases up to sixteen. -/
def digitIn? (base : Nat) (c : Char) : Option Nat :=
  (hexValue? c).filter (· < base)

/-- The value of one or more digits. -/
def natIn? (base : Nat) (digits : List Char) : Option Nat :=
  if digits.isEmpty then none
  else (digits.mapM (digitIn? base)).map fun ds => ds.foldl (fun n d => base * n + d) 0

/-- A text without its sign, and whether that is a minus. -/
def splitSign : List Char → Bool × List Char
  | '-' :: rest => (true, rest)
  | '+' :: rest => (false, rest)
  | s => (false, s)

/-- Whether a text is digits of which the first is a zero that is not needed. -/
def hasSpareZero (s : List Char) : Bool :=
  let digits := (splitSign s).2
  1 < digits.length && digits.head? == some '0' && digits.all Char.isDigit

/-- A number without a sign, whose base may be marked. -/
def unsigned? : List Char → Option Nat
  | '0' :: 'x' :: digits => natIn? 16 digits
  | '0' :: 'o' :: digits => natIn? 8 digits
  | '0' :: 'b' :: digits => natIn? 2 digits
  | digits => natIn? 10 digits

/-- A whole number of any size. -/
def integer? (s : List Char) : Option Int :=
  let (isNegative, digits) := splitSign s
  if hasSpareZero s then none
  else (unsigned? digits).map fun n => if isNegative then -(n : Int) else n

/-- The power of ten after a mark of it. -/
def exponent? (s : List Char) : Option Int :=
  let (isNegative, digits) := splitSign s
  (Text.readNat? digits).map fun n => if isNegative then -(n : Int) else n

/-- The digits and the power of ten of a number with a point or an exponent. -/
def decimal? (s : List Char) : Option (Nat × Int) := do
  let (whole, s) := Text.spanDigits s
  let (fraction, s) := match s with
    | '.' :: s => Text.spanDigits s
    | s => ([], s)
  let exponent ← match s with
    | [] => some 0
    | e :: s => if e = 'e' ∨ e = 'E' then exponent? s else none
  if whole.isEmpty && fraction.isEmpty then none
  return (Text.valueOfDigits (whole ++ fraction), exponent - fraction.length)

/-- A floating-point number as a message shows it. -/
def float? (s : List Char) : Option String := do
  let (isNegative, digits) := splitSign s
  let sign := if isNegative then "-" else ""
  if [".inf", ".Inf", ".INF"].contains (String.ofList digits) then return sign ++ "inf"
  if [".nan", ".NaN", ".NAN"].contains (String.ofList s) then return "NaN"
  let (digits, exponent) ← decimal? digits
  let (digits, exponent) := (← Decimal.nearest? digits exponent).shortest
  return sign ++ Decimal.plainText digits exponent

def isNothing (s : String) : Bool := ["~", "null", "Null", "NULL"].contains s

def bool? (s : String) : Option Bool :=
  if ["true", "True", "TRUE"].contains s then some true
  else if ["false", "False", "FALSE"].contains s then some false
  else none

/-! ## What a scalar is, in the words of a message -/

def boolText? (s : String) : Option String :=
  (bool? s).map fun b => "boolean `" ++ (if b then "true" else "false") ++ "`"

/-- A whole number by the size of the words it fits; none beyond all sizes. -/
def integerText? (s : String) : Option String := do
  let n ← integer? s.toList
  let text := "integer `" ++ toString n ++ "`"
  if JsonNumber.fitsWord n then return text
  else if 0 ≤ n ∧ n < Word.bound128 then return text ++ " as u128"
  else if n < 0 ∧ Word.low128 ≤ n then return text ++ " as i128"
  else none

def floatText? (s : String) : Option String :=
  (float? s.toList).map fun x => "floating point `" ++ x ++ "`"

def nothingText? (s : String) : Option String :=
  if isNothing s then some "unit value" else none

def stringText (s : String) : String := "string " ++ Text.quoted s

/-- A plain scalar without a tag that says something. -/
def plainText (s : String) : String :=
  if s.isEmpty then "unit value"
  else
    let float := if hasSpareZero s.toList then none else floatText? s
    (((nothingText? s).or (boolText? s)).or (integerText? s)).or float |>.getD (stringText s)

/-- What a scalar is, or what its tag wants instead. -/
def scalarText (s : String) (style : ScalarStyle) : Option Tag → Except String String
  | some .bool => (boolText? s).elim (.error "a boolean") .ok
  | some .integer => (integerText? s).elim (.error "an integer") .ok
  | some .float => (floatText? s).elim (.error "a float") .ok
  | some .nothing => (nothingText? s).elim (.error "null") .ok
  | some .other => .ok (stringText s)
  | some .custom | none => .ok (if style = .plain then plainText s else stringText s)

/-! ## Values -/

/-- A value; nothing of a collection is known. -/
inductive Item where
  | scalar (text : String) (style : ScalarStyle) (tag : Option Tag)
  | list
  | map
  deriving DecidableEq, Repr

namespace Item

/-- A value that is left out. -/
def empty : Item := scalar "" .plain none

def isScalar : Item → Bool
  | scalar .. => true
  | _ => false

/-- A value with a tag, which is of no matter for a collection. -/
def withTag (tag : Option Tag) : Item → Item
  | scalar text style _ => scalar text style tag
  | item => item

/-- The whole number that a value is. A plain scalar is one whatever its tag. -/
def integer? : Item → Option Int
  | scalar text .plain _ | scalar text .literal (some .integer) => Yaml.integer? text.toList
  | _ => none

/-- That a value is of another type than it should be. -/
def mismatch (expected : String) (item : Item) : String :=
  let wrong (found : String) := "invalid type: " ++ found ++ ", expected " ++ expected
  match item with
  | list => wrong "sequence"
  | map => wrong "map"
  | scalar text style tag =>
    match scalarText text style tag with
    | .ok found => wrong found
    | .error wanted => "invalid value: " ++ stringText text ++ ", expected " ++ wanted

end Item

end ScheduledScaling.Yaml
