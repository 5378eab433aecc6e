import ScheduledScaling.Json.Decode
import ScheduledScaling.Text.Base64
/-!
Shapes of JSON values. A shape says what values are accepted and how they are brought to normal
form: unknown members and empty ones are dropped, defaults are filled in, times are written in
UTC. `Shape.read` gives the normal form of a node, or the first reason to refuse it, in the order
in which the text is read.

Records come in three manners. A strict one refuses missing and repeated fields and may also be
written as a list of its fields' values. A gathering one is as strict, but is no list, and reads
its unknown members as any value where the others pass over them. A lenient one takes the last of
repeated fields, and lets every field be missing or null.
-/
namespace ScheduledScaling

/-- What happens when a field of a record is missing. -/
inductive Presence where
  /-- It has to be there and must not be null. -/
  | required
  /-- It may be missing or null, and is then left out. -/
  | optional
  /-- As `optional`, but a record that is written as a list has to reach it. -/
  | optionalKeyed
  /-- A missing one takes a value; null is refused. -/
  | byDefault (value : Json)
  /-- As `byDefault`, and a field of just that value is left out. -/
  | hiddenDefault (value : Json)
  /-- A missing or null one takes a value. -/
  | filled (value : Json)
  /-- It has to be there, and a null takes a value. -/
  | requiredOrNull (value : Json)

inductive Manner where
  | strict
  | gathering
  | lenient
  deriving DecidableEq, Repr

structure Entry (σ : Type) where
  key : String
  presence : Presence
  shape : σ

inductive Shape where
  | string
  | bool
  /-- Whole numbers in a range, with the name of the range. -/
  | int (name : String) (low high : Int)
  /-- A time; `wholeSeconds` drops its fraction when it is written. -/
  | time (wholeSeconds : Bool)
  /-- A whole number of 32 bits or a string. -/
  | intOrString
  /-- A string that is base64 of some bytes; null stands for none. -/
  | base64
  /-- Any value. -/
  | any
  /-- One given string. -/
  | constant (value expected : String)
  /-- One of some strings. -/
  | choice (options : List String)
  | list (item : Shape)
  | map (value : Shape)
  | record (name : String) (manner : Manner) (entries : List (Entry Shape))

namespace Shape

def i32 : Shape := int "i32" Word.low32 Word.high32

def i64 : Shape := int "i64" Word.low64 Word.high64

def u16 : Shape := int "u16" 0 (Word.bound16 - 1)

def u32 : Shape := int "u32" 0 (Word.bound32 - 1)

def strings : Shape := list string

def stringMap : Shape := map string

/-- What a shape accepts, in the words of a message. -/
def expected : Shape → String
  | string => "a string"
  | bool => "a boolean"
  | int name _ _ => name
  | time _ => "an RFC 3339 formatted date and time string"
  | intOrString => "IntOrString"
  | base64 => "a base64-encoded string"
  | any => "any value"
  | constant .. => "a string"
  | choice _ => "unit"
  | list _ => "a sequence"
  | map _ => "a map"
  | record name .lenient _ => name
  | record name _ _ => "struct " ++ name

def entries : Shape → List (Entry Shape)
  | record _ _ entries => entries
  | _ => []

/-- The seconds of a time without the fraction; a leap second stays one. -/
def wholeSecond (t : Instant) : Instant :=
  ⟨t.second, if t.nano < Instant.nanosPerSecond then 0 else Instant.nanosPerSecond⟩

def timeText (wholeSeconds : Bool) (t : Instant) : String :=
  if wholeSeconds then (wholeSecond t).text else t.text

end Shape

/-- The fields of a record that were read, by key; a null that is accepted has no value. -/
abbrev Fields := List (String × Option Json)

namespace Shape

def refuse {α : Type} (problem : DecodeProblem) (offset : Nat) : Except DecodeError α :=
  .error ⟨problem, offset⟩

/-- The number at a place, if the shape is one of numbers. -/
def readNumber (shape : Shape) (n : JsonNumber) (start stop : Nat) : Except DecodeError Json :=
  let inRange (low high : Int) (name : String) : Except DecodeError Json :=
    match n with
    | .integer k =>
      if low ≤ k ∧ k ≤ high then .ok (.number n)
      else refuse (.wrongValue (.number n) name) stop
    | .double .. => refuse (.wrongType (.number n) shape.expected) stop
  match shape with
  | any => .ok (.number n)
  | int name low high => inRange low high name
  | intOrString => inRange Word.low32 Word.high32 "a 32-bit integer"
  | choice _ => refuse (.malformed .expectedValue) (start + 1)
  | _ => refuse (.wrongType (.number n) shape.expected) stop

def readNull (shape : Shape) (start stop : Nat) : Except DecodeError Json :=
  match shape with
  | any => .ok .null
  | base64 => .ok (.string "")
  | choice _ => refuse (.malformed .expectedValue) (start + 1)
  | _ => refuse (.wrongType .null shape.expected) stop

/-- Some strings in the words of a message. -/
def optionsText (options : List String) : String :=
  let quoted := options.map fun o => "`" ++ o ++ "`"
  match quoted with
  | [a] => a
  | [a, b] => a ++ " or " ++ b
  | _ => "one of " ++ String.intercalate ", " quoted

def readBool (shape : Shape) (b : Bool) (start stop : Nat) : Except DecodeError Json :=
  match shape with
  | bool | any => .ok (.bool b)
  | choice _ => refuse (.malformed .expectedValue) (start + 1)
  | _ => refuse (.wrongType (.bool b) shape.expected) stop

/-- One of some strings. -/
def readChoice (options : List String) (s : String) (stop : Nat) : Except DecodeError Json :=
  if options.contains s then .ok (.string s)
  else refuse (.custom ("unknown variant `" ++ s ++ "`, expected " ++ optionsText options)) stop

def readString (shape : Shape) (s : String) (stop : Nat) : Except DecodeError Json :=
  match shape with
  | string | any | intOrString => .ok (.string s)
  | constant value expected =>
    if s = value then .ok (.string s) else refuse (.wrongValue (.string s) expected) stop
  | time wholeSeconds =>
    match Timestamp.readLenient s with
    | .ok t => .ok (.string (timeText wholeSeconds t))
    | .error e => refuse (.timestamp e) stop
  | base64 =>
    match Text.Base64.decode s.toUTF8.toList with
    | .ok _ => .ok (.string s)
    | .error problem => refuse (.custom problem.message) stop
  | choice options => readChoice options s stop
  | _ => refuse (.wrongType (.string s) shape.expected) stop

/-- The value of a record's field that is missing, if there is one. -/
def absent (e : Entry Shape) (stop : Nat) : Except DecodeError (Option Json) :=
  match e.presence with
  | .required | .requiredOrNull _ => refuse (.missing e.key) stop
  | .optional | .optionalKeyed => .ok none
  | .byDefault value | .filled value => .ok (some value)
  | .hiddenDefault _ => .ok none

/-- Whether a null may stand for the value of a field. -/
def acceptsNull : Presence → Bool
  | .optional | .optionalKeyed | .filled _ | .requiredOrNull _ => true
  | _ => false

/-- The value of a field that is null, if there is one. -/
def ofNull : Presence → Option Json
  | .filled value | .requiredOrNull value => some value
  | _ => none

def isHidden : Presence → Json → Bool
  | .hiddenDefault (.string d), .string s => s = d
  | .hiddenDefault (.array []), .array [] => true
  | .hiddenDefault (.object []), .object [] => true
  | _, _ => false

/-- The fields of a record in normal form: hidden ones left out, missing ones filled in. -/
def complete (fields : Fields) (stop : Nat) :
    List (Entry Shape) → Except DecodeError (List (String × Json))
  | [] => .ok []
  | e :: rest => do
    let value ← match fields.lookup e.key with
      | some (some value) => pure (if isHidden e.presence value then none else some value)
      | some none => pure (ofNull e.presence)
      | none => absent e stop
    let others ← complete fields stop rest
    return match value with
      | some value => (e.key, value) :: others
      | none => others

def recordOf (fields : Fields) (stop : Nat) (entries : List (Entry Shape)) :
    Except DecodeError Json := do
  return Json.ofMembers (← complete fields stop entries)

/-- A record that is written as a list ends after `index` values; the fields that remain must
be ones that such a list may leave out. -/
def endPositional (name : String) (size stop index : Nat) :
    List (Entry Shape) → Except DecodeError (Fields × Nat)
  | [] => .ok ([], stop)
  | e :: rest =>
    match e.presence with
    | .required | .requiredOrNull _ | .optionalKeyed =>
      refuse (.wrongLength index
        ("struct " ++ name ++ " with " ++ toString size ++ " elements")) stop
    | _ => endPositional name size stop (index + 1) rest

/-- A constant is compared after it is read, so a wrong one is reported after it. -/
def moveOffset {α : Type} (shape : Shape) (after : Nat) :
    Except DecodeError α → Except DecodeError α
  | .error ⟨.wrongValue found expected, offset⟩ =>
    match shape with
    | constant .. => .error ⟨.wrongValue found expected, after⟩
    | _ => .error ⟨.wrongValue found expected, offset⟩
  | result => result

/-- The end of a record that is written as a list, after `index` values, the last of its fields.
`ending` is what looking for the end of the list gives, `rest` are the values that follow. -/
def afterLast (source : Source) (index : Nat) (ending : Except SyntaxFault Nat) (rest : Nodes) :
    Except DecodeError Nat :=
  match source with
  | .text => ending.mapError .ofFault
  | .value =>
    if rest.length = 0 then .ok 0
    else refuse (.wrongLength (index + rest.length) "fewer elements in array") 0

/-- The value of a field from what its shape makes of it; none for a null that is accepted. -/
def nullable (e : Entry Shape) (value : Node) (result : Except DecodeError Json) :
    Except DecodeError (Option Json) :=
  match value with
  | .null .. => if acceptsNull e.presence then .ok none else some <$> result
  | _ => some <$> result

/-- One of some strings, written as an object with it as the key of a null. -/
def readTagged (options : List String) (opened : Nat) :
    NodeMembers → Except DecodeError Json
  | .done _ => refuse (.malformed .expectedValue) opened
  | .fault f => .error (.ofFault f)
  | .cons key keyStop _ value afterValue rest => do
    let name ← readChoice options key keyStop
    match value with
    | .null .. => pure ()
    | .bool b _ stop => refuse (.wrongType (.bool b) "unit") stop
    | .number n _ stop => refuse (.wrongType (.number n) "unit") stop
    | .string s _ stop => refuse (.wrongType (.string s) "unit") stop
    | .array start .. => refuse (.wrongType .list "unit") start
    | .object start .. => refuse (.wrongType .map "unit") start
    | .fault f => .error (.ofFault f)
    match rest with
    | .done _ => return name
    | _ => refuse (.malformed .expectedValue) afterValue

mutual

/-- The normal form of a value, or the first reason to refuse it. -/
def read (source : Source) (shape : Shape) : Node → Except DecodeError Json
  | .fault f => .error (.ofFault f)
  | .null start stop => readNull shape start stop
  | .bool b start stop => readBool shape b start stop
  | .number n start stop => readNumber shape n start stop
  | .string s _ stop => readString shape s stop
  | .array start opened items =>
    match shape with
    | list item => do return .array (← readItems source item items)
    | any => do return .array (← readItems source any items)
    | record name .strict entries => do
      let (fields, stop) ← readPositional source name entries.length 0 entries items
      recordOf fields stop entries
    | record _ .lenient _ | intOrString => refuse (.wrongType .list shape.expected) opened
    | choice _ => refuse (.malformed .expectedValue) (start + 1)
    | _ => refuse (.wrongType .list shape.expected) start
  | .object start opened members =>
    match shape with
    | map value => do
      return .ofMembers (← readMap source value members)
    | any => do return .ofMembers (← readMap source any members)
    | record _ manner entries => do
      let (fields, stop) ← readFields source manner entries [] members
      recordOf fields stop entries
    | intOrString => refuse (.wrongType .map shape.expected) opened
    | choice options => readTagged options opened members
    | _ => refuse (.wrongType .map shape.expected) start

def readItems (source : Source) (shape : Shape) : Nodes → Except DecodeError (List Json)
  | .done _ => .ok []
  | .fault f => .error (.ofFault f)
  | .cons item _ rest => do
    let item ← read source shape item
    return item :: (← readItems source shape rest)

/-- The fields of a strict record that is written as a list of values, and the offset after it.
`index` counts the values before. -/
def readPositional (source : Source) (name : String) (size index : Nat)
    (entries : List (Entry Shape)) : Nodes → Except DecodeError (Fields × Nat)
  | .fault f => .error (.ofFault f)
  | .done stop => endPositional name size stop index entries
  | .cons item ending rest =>
    match entries with
    | [] => do return ([], ← afterLast source index ending (.cons item ending rest))
    | [e] => do
      let value ← nullable e item (read source e.shape item)
      return ([(e.key, value)], ← afterLast source (index + 1) ending rest)
    | e :: later => do
      let value ← nullable e item (read source e.shape item)
      let (fields, stop) ← readPositional source name size (index + 1) later rest
      return ((e.key, value) :: fields, stop)

def readMap (source : Source) (shape : Shape) :
    NodeMembers → Except DecodeError (List (String × Json))
  | .done _ => .ok []
  | .fault f => .error (.ofFault f)
  | .cons key _ _ value _ rest => do
    let value ← read source shape value
    return (key, value) :: (← readMap source shape rest)

/-- The known fields of a record, later ones first, and the offset after it. -/
def readFields (source : Source) (manner : Manner) (entries : List (Entry Shape))
    (fields : Fields) : NodeMembers → Except DecodeError (Fields × Nat)
  | .done stop => .ok (fields, stop)
  | .fault f => .error (.ofFault f)
  | .cons key _ afterKey value afterValue rest =>
    match entries.find? fun e => e.key = key with
    | none => do
      if manner = .gathering then discard (read source any value)
      readFields source manner entries fields rest
    | some e => do
      if manner ≠ .lenient ∧ (fields.lookup key).isSome then
        throw ⟨.repeated key, afterKey⟩
      let value ← moveOffset e.shape afterValue (nullable e value (read source e.shape value))
      readFields source manner entries ((key, value) :: fields) rest

end

end Shape

end ScheduledScaling
