import ScheduledScaling.Json.Shape
/-!
Types that are written as JSON. A type has a shape that says what is accepted, a reader of values
in the shape's normal form, and a writer.
-/
namespace ScheduledScaling

/-- The normal form of a whole text; nothing may follow the value. -/
def Shape.readText (shape : Shape) (text : String) : Except DecodeError Json := do
  let document := Document.read text
  let value ← shape.read .text document.root
  match document.trailing with
  | some f => throw (.ofFault f)
  | none => return value

class Codec (α : Type) where
  shape : Shape
  ofNormal : Json → α
  toJson : α → Json

namespace Codec

variable {α : Type} [Codec α]

/-- Reads a value that was read before. -/
def ofJson (value : Json) : Except DecodeError α := do
  return ofNormal (← (shape α).read .value value.toNode)

/-- Reads a whole text. -/
def ofText (text : String) : Except DecodeError α := do
  return ofNormal (← (shape α).readText text)

end Codec

namespace Json

/-! ## Members of values in normal form -/

def text? (key : String) (v : Json) : Option String := (v.get? key).bind asString?

def textOr (key default : String) (v : Json) : String := (v.text? key).getD default

def int? (key : String) (v : Json) : Option Int := (v.get? key).bind asInt?

def flagOf (key : String) (v : Json) : Bool := ((v.get? key).bind asBool?).getD false

def time? (key : String) (v : Json) : Option Instant :=
  (v.text? key).bind fun text => (Timestamp.readLenient text).toOption

def textsOf (v : Json) : List String := v.items.filterMap asString?

def textMapOf (v : Json) : Keyed String :=
  v.members.filterMap fun (k, v) => v.asString?.map (k, ·)

/-- The member of an object as a value of a type. -/
def decoded? (α : Type) [Codec α] (key : String) (v : Json) : Option α :=
  (v.get? key).map Codec.ofNormal

/-- The members of an object besides some. -/
def others (keys : List String) (v : Json) : Keyed Json := Keyed.without keys v.members

/-! ## Writing -/

def texts (items : List String) : Json := .array (items.map .string)

def textMap (pairs : Keyed String) : Json := ofMembers (pairs.map fun (k, v) => (k, .string v))

def time (t : Instant) : Json := .string t.text

/-- A time of an object's metadata, which has whole seconds. -/
def wholeTime (t : Instant) : Json := .string (Shape.timeText true t)

/-- A text that is left out when it is empty. -/
def unlessEmpty (s : String) : Option Json := if s = "" then none else some (.string s)

/-- An object of the members that have a value, and of other members. -/
def recordWith (others : Keyed Json) (members : List (String × Option Json)) : Json :=
  ofMembers (others ++ members.filterMap fun (k, v) => v.map (k, ·))

end Json

end ScheduledScaling
