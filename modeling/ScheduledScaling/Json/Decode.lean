import ScheduledScaling.Json.Document
import ScheduledScaling.Text.Quoted
import ScheduledScaling.Time.Timestamp
/-!
Why a JSON value is refused. A refusal names the fault and the byte offset in the text at which
reading stopped; values that come from no text have no offset worth showing.
-/
namespace ScheduledScaling

/-- What was found where something else was expected. -/
inductive Found where
  | null
  | bool (b : Bool)
  | number (n : JsonNumber)
  | string (s : String)
  | list
  | map
  deriving Repr

namespace Found

def message : Found → String
  | null => "null"
  | bool b => "boolean `" ++ (if b then "true" else "false") ++ "`"
  | number (.integer n) => "integer `" ++ toString n ++ "`"
  | number n => "floating point `" ++ n.text ++ "`"
  | string s => "string " ++ Text.quoted s
  | list => "sequence"
  | map => "map"

end Found

inductive DecodeProblem where
  | malformed (p : SyntaxProblem)
  | wrongType (found : Found) (expected : String)
  | wrongValue (found : Found) (expected : String)
  | missing (field : String)
  | repeated (field : String)
  | wrongLength (length : Nat) (expected : String)
  | timestamp (e : TimestampError)
  | custom (text : String)
  deriving Repr

namespace DecodeProblem

def message : DecodeProblem → String
  | malformed p => p.message
  | wrongType found expected => "invalid type: " ++ found.message ++ ", expected " ++ expected
  | wrongValue found expected => "invalid value: " ++ found.message ++ ", expected " ++ expected
  | missing field => "missing field `" ++ field ++ "`"
  | repeated field => "duplicate field `" ++ field ++ "`"
  | wrongLength length expected =>
    "invalid length " ++ toString length ++ ", expected " ++ expected
  | timestamp e => e.message
  | custom text => text

end DecodeProblem

structure DecodeError where
  problem : DecodeProblem
  offset : Nat
  deriving Repr

namespace DecodeError

def ofFault (f : SyntaxFault) : DecodeError := ⟨.malformed f.problem, f.offset⟩

/-- The line of a byte offset, from 1, and the number of bytes before it on that line. -/
def position (text : String) (offset : Nat) : Nat × Nat :=
  let step : Nat × Nat × Nat → Char → Nat × Nat × Nat := fun (at_, line, start) c =>
    let after := at_ + c.utf8Size
    if at_ < offset && c = '\n' then (after, line + 1, after) else (after, line, start)
  let (_, line, start) := text.toList.foldl step (0, 1, 0)
  (line, offset - start)

/-- The message about a value that comes from no text. -/
def message (e : DecodeError) : String := e.problem.message

/-- The message about a text, with the place in it. -/
def messageIn (e : DecodeError) (text : String) : String :=
  let (line, column) := position text e.offset
  e.problem.message ++ " at line " ++ toString line ++ " column " ++ toString column

end DecodeError

/-- Where a value comes from: a text, or a value that was read before. -/
inductive Source where
  | text
  | value
  deriving DecidableEq, Repr

end ScheduledScaling
