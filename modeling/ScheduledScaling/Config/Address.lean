import ScheduledScaling.Text.Blank
import ScheduledScaling.Text.Numeral
import ScheduledScaling.Text.Quoted
/-!
Addresses to listen on: a host in one of its two numeric forms, and a port number. The short form
has four numbers below 256. The long form stands in brackets and has eight groups of hexadecimal
digits; one row of zero groups may be left out, and the last two groups may be written in the
short form.
-/
namespace ScheduledScaling

inductive SocketAddress where
  | short (octets : List Nat) (portNumber : Nat)
  | long (groups : List Nat) (zone : Nat) (portNumber : Nat)
  deriving DecidableEq, Repr, Inhabited

namespace SocketAddress

/-! ## Reading -/

/-- A reader gives a value and the rest of the text. -/
abbrev Reader (α : Type) := List Char → Option (α × List Char)

def hexDigit? (c : Char) : Option Nat :=
  if c.isDigit then some (c.toNat - 48)
  else if 'a' ≤ c ∧ c ≤ 'f' then some (c.toNat - 87)
  else if 'A' ≤ c ∧ c ≤ 'F' then some (c.toNat - 55)
  else none

def literal (expected : Char) : Reader Unit
  | [] => none
  | c :: rest => if c = expected then some ((), rest) else none

/-- A decimal number below a bound. -/
def number (bound : Nat) : Reader Nat := fun s =>
  let (digits, rest) := Text.spanDigits s
  (Text.readNat? digits).bind fun n => if n < bound then some (n, rest) else none

/-- A number of the short form, without zeros in front. -/
def octet : Reader Nat := fun s =>
  let (digits, rest) := Text.spanDigits s
  if digits.length > 3 ∨ (digits.length > 1 ∧ digits.head? = some '0') then none
  else (Text.readNat? digits).bind fun n => if n < 256 then some (n, rest) else none

/-- A group of the long form: up to four hexadecimal digits. -/
def group : Reader Nat := fun s =>
  let digits := s.takeWhile fun c => (hexDigit? c).isSome
  if digits = [] ∨ digits.length > 4 then none
  else
    some ((digits.filterMap hexDigit?).foldl (fun n d => 16 * n + d) 0, s.drop digits.length)

def octets : Reader (List Nat) := fun s => do
  let (a, s) ← octet s
  let ((), s) ← literal '.' s
  let (b, s) ← octet s
  let ((), s) ← literal '.' s
  let (c, s) ← octet s
  let ((), s) ← literal '.' s
  let (d, s) ← octet s
  return ([a, b, c, d], s)

def portNumber : Reader Nat := fun s => do
  let ((), s) ← literal ':' s
  number 65536 s

/-- A value after a colon, or without one where it comes first. -/
def separated {α : Type} (first : Bool) (value : Reader α) : Reader α := fun s =>
  if first then value s
  else do
    let ((), s) ← literal ':' s
    value s

/-- The last two groups in the short form. -/
def shortGroups : List Nat → List Nat
  | [a, b, c, d] => [256 * a + b, 256 * c + d]
  | _ => []

/-- Up to `limit` groups, whether they end in the short form, and the rest. -/
def groups : (limit : Nat) → (first : Bool) → List Char → List Nat × Bool × List Char
  | 0, _, s => ([], false, s)
  | limit + 1, first, s =>
    match if limit = 0 then none else separated first octets s with
    | some (quad, rest) => (shortGroups quad, true, rest)
    | none =>
      match separated first group s with
      | none => ([], false, s)
      | some (g, rest) =>
        let (more, isShort, rest) := groups limit false rest
        (g :: more, isShort, rest)

/-- The eight groups of the long form. -/
def longHost : Reader (List Nat) := fun s =>
  let (head, isShort, rest) := groups 8 true s
  if head.length = 8 then some (head, rest)
  else if isShort then none
  else do
    let ((), rest) ← literal ':' rest
    let ((), rest) ← literal ':' rest
    let (tail, _, rest) := groups (7 - head.length) true rest
    return (head ++ List.replicate (8 - head.length - tail.length) 0 ++ tail, rest)

/-- The zone after a percent sign; a missing one is zone 0. -/
def zone (s : List Char) : Nat × List Char :=
  (do
    let ((), rest) ← literal '%' s
    number Word.bound32 rest : Option (Nat × List Char)).getD (0, s)

def readShort : Reader SocketAddress := fun s => do
  let (quad, s) ← octets s
  let (n, s) ← portNumber s
  return (short quad n, s)

def readLong : Reader SocketAddress := fun s => do
  let ((), s) ← literal '[' s
  let (host, s) ← longHost s
  let (zone, s) := zone s
  let ((), s) ← literal ']' s
  let (n, s) ← portNumber s
  return (long host zone n, s)

/-- Reads a whole text as an address. -/
def read? (text : String) : Option SocketAddress :=
  match readShort text.toList <|> readLong text.toList with
  | some (address, []) => some address
  | _ => none

/-! ## Writing -/

def octetsText (quad : List Nat) : String := String.intercalate "." (quad.map toString)

def groupsText (groups : List Nat) : String := String.intercalate ":" (groups.map Text.hexText)

/-- The start and the length of the first of the longest rows of zeros, where `index` groups and
the last `row` zeros came before. -/
def longestZeros : (index row : Nat) → (best : Nat × Nat) → List Nat → Nat × Nat
  | _, _, best, [] => best
  | index, row, best, g :: rest =>
    if g = 0 then
      let best := if best.2 < row + 1 then (index - row, row + 1) else best
      longestZeros (index + 1) (row + 1) best rest
    else longestZeros (index + 1) 0 best rest

def longHostText : List Nat → String
  | [0, 0, 0, 0, 0, 65535, a, b] =>
    "::ffff:" ++ octetsText [a / 256, a % 256, b / 256, b % 256]
  | groups =>
    let (start, length) := longestZeros 0 0 (0, 0) groups
    if 1 < length then
      groupsText (groups.take start) ++ "::" ++ groupsText (groups.drop (start + length))
    else groupsText groups

def text : SocketAddress → String
  | short quad n => octetsText quad ++ ":" ++ toString n
  | long groups zone n =>
    "[" ++ longHostText groups ++ (if zone = 0 then "" else "%" ++ toString zone) ++ "]:" ++
      toString n

end SocketAddress

end ScheduledScaling
