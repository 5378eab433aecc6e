import ScheduledScaling.Yaml.Tag
/-!
Directives, the lines before a document that begin with a percent sign. One tells the version of
YAML; others tell which beginning of addresses a handle of tags stands for.
-/
namespace ScheduledScaling.Yaml

/-- What a document says of itself before it begins. -/
inductive Directive where
  | version (major minor : Nat)
  /-- The beginning of the addresses with a handle. -/
  | handle (name target : List Char)
  deriving DecidableEq, Repr

namespace Directive

/-- The most digits of a number in a version. -/
def longestNumber : Nat := 9

def readNumber (start : Mark) (c : Cursor) : Except Fault (Nat × Cursor) := do
  let digits := c.rest.takeWhile Char.isDigit
  if longestNumber < digits.length then
    throw (.inside .versionDirective start .longVersion (c.skip longestNumber).mark)
  if digits.isEmpty then throw (.inside .versionDirective start .noVersion c.mark)
  return (digits.foldl (fun n d => 10 * n + (d.toNat - 48)) 0, c.skip digits.length)

def readVersion (start : Mark) (c : Cursor) : Except Fault (Directive × Cursor) := do
  let (major, c) ← readNumber start (c.skipWhile isSpace)
  if c.rest.head? ≠ some '.' then
    throw (.inside .versionDirective start .noVersionPoint c.mark)
  let (minor, c) ← readNumber start c.next
  return (.version major minor, c)

/-- A handle: an exclamation mark, or a name between two of them. -/
def readHandle (start : Mark) (c : Cursor) : Except Fault (List Char × Cursor) := do
  if c.rest.head? ≠ some '!' then throw (.inside .directiveMark start .noExclamation c.mark)
  let name := (c.rest.drop 1).takeWhile isNameChar
  let after := c.skip (1 + name.length)
  if after.rest.head? = some '!' then return ('!' :: name ++ ['!'], after.next)
  if !name.isEmpty then throw (.inside .directiveHandle start .noExclamation after.mark)
  return (['!'], after)

def readTarget (start : Mark) (c : Cursor) : Except Fault (Directive × Cursor) := do
  let (name, c) ← readHandle start (c.skipWhile isSpace)
  if !c.rest.head?.any isSpace then throw (.inside .tagDirective start .noBlank c.mark)
  let (target, c) ← Address.read true .directiveTarget start (c.skipWhile isSpace)
  if !c.rest.head?.all isGap then throw (.inside .tagDirective start .noBlankOrBreak c.mark)
  return (.handle name target, c)

/-- The directive at a place, which begins with a percent sign, and where it stops; the rest of
its line is passed over. -/
def read (c : Cursor) : Except Fault (Directive × Mark × Cursor) := do
  let start := c.mark
  let name := (c.rest.drop 1).takeWhile isNameChar
  let after := c.skip (1 + name.length)
  if name.isEmpty then throw (.inside .directive start .noDirectiveName after.mark)
  if !after.rest.head?.all isGap then
    throw (.inside .directive start .strangeDirectiveName after.mark)
  let (directive, after) ←
    match String.ofList name with
    | "YAML" => readVersion start after
    | "TAG" => readTarget start after
    | _ => throw (.inside .directive start .unknownDirective after.mark)
  return (directive, after.mark, ← after.endLine .directive start)

end Directive

/-! ## All directives of a document -/

structure Directives where
  hasVersion : Bool
  handles : List (List Char × List Char)

namespace Directives

def none : Directives := ⟨false, []⟩

/-- The handles that every document has, unless it gives them another meaning. -/
def commonHandles : List (List Char × List Char) :=
  [(['!'], ['!']), (['!', '!'], Tag.sharedAddress)]

/-- With one more directive, of which there is one for the version and one for each handle. -/
def add (ds : Directives) : Directive → Except Problem Directives
  | .version major minor =>
    if ds.hasVersion then .error .duplicateVersion
    else if major = 1 ∧ (minor = 1 ∨ minor = 2) then .ok { ds with hasVersion := true }
    else .error .incompatibleVersion
  | .handle name target =>
    if (ds.handles.lookup name).isSome then .error .duplicateHandle
    else .ok { ds with handles := (name, target) :: ds.handles }

end Directives

end ScheduledScaling.Yaml
