import ScheduledScaling.Word
/-!
Decimal numerals. Reading takes ASCII digits only. `readNat?` takes digits alone; `readWord?`
takes an optional plus sign and a bound, `readInt?` either sign and two bounds. Writing is
`padded`, which fills with zeros on the left.
-/
namespace ScheduledScaling.Text

def digitValue (c : Char) : Nat := c.toNat - '0'.toNat

def valueOfDigits (digits : List Char) : Nat :=
  digits.foldl (fun n c => 10 * n + digitValue c) 0

/-- The value of a text of one or more digits. -/
def readNat? (s : List Char) : Option Nat :=
  if s.isEmpty || !s.all Char.isDigit then none else some (valueOfDigits s)

/-- The value of digits after an optional plus sign, if it lies below the bound. -/
def readWord? (bound : Nat) (s : List Char) : Option Nat :=
  let digits := match s with
    | '+' :: rest => rest
    | s => s
  (readNat? digits).filter (· < bound)

/-- The value of digits after an optional sign, if it lies from `low` to `high`. -/
def readInt? (low high : Int) (s : List Char) : Option Int :=
  let value : Option Int := match s with
    | '-' :: rest => (readNat? rest).map fun n => -(n : Int)
    | '+' :: rest => (readNat? rest).map Int.ofNat
    | s => (readNat? s).map Int.ofNat
  value.filter fun n => low ≤ n && n ≤ high

/-- The longest run of digits at the start of a text, and the rest. -/
def spanDigits (s : List Char) : List Char × List Char :=
  (s.takeWhile Char.isDigit, s.dropWhile Char.isDigit)

def padded (width n : Nat) : String :=
  let digits := toString n
  String.ofList (List.replicate (width - digits.length) '0') ++ digits

theorem readNat?_eq_some_iff {s : List Char} {n : Nat} :
    readNat? s = some n ↔ s ≠ [] ∧ (∀ c ∈ s, c.isDigit) ∧ valueOfDigits s = n := by
  by_cases he : s = []
  · simp [readNat?, he]
  · simp [readNat?, he]

theorem spanDigits_append (s : List Char) : (spanDigits s).1 ++ (spanDigits s).2 = s :=
  List.takeWhile_append_dropWhile

end ScheduledScaling.Text
