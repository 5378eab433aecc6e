import ScheduledScaling.Yaml.Scalar
/-!
Block scalars of a YAML text: the lines after a bar or an angle that are indented more than the
text around them. A literal scalar keeps its line breaks. In a folded one a line break between two
lines that begin with no space is a space, or nothing if empty lines follow it.
-/
namespace ScheduledScaling.Yaml.BlockScalar

/-- What becomes of the line breaks at the end of a scalar. -/
inductive Chomping where
  | clip
  | strip
  | keep
  deriving DecidableEq, Repr

/-! ## The first line -/

def readChomping (c : Cursor) : Option Chomping × Cursor :=
  match c.rest with
  | '+' :: _ => (some .keep, c.next)
  | '-' :: _ => (some .strip, c.next)
  | _ => (none, c)

/-- How much more than the text around it a scalar is indented, if that is written. -/
def readIncrement (start : Mark) (c : Cursor) : Except Fault (Option Nat × Cursor) :=
  match c.rest with
  | '0' :: _ => .error (.inside .blockScalar start .zeroIndent c.mark)
  | d :: _ => .ok (if d.isDigit then (some (d.toNat - 48), c.next) else (none, c))
  | [] => .ok (none, c)

/-- The two indicators, which stand in either order. -/
def readHeader (start : Mark) (c : Cursor) : Except Fault (Chomping × Option Nat × Cursor) := do
  match readChomping c with
  | (some chomping, c) =>
    let (increment, c) ← readIncrement start c
    return (chomping, increment, c)
  | (none, _) =>
    match ← readIncrement start c with
    | (none, _) => return (.clip, none, c)
    | (increment, c) =>
      let (chomping, c) := readChomping c
      return (chomping.getD .clip, increment, c)

/-! ## Lines -/

/-- Passes over empty lines and the indentation of the next line, which is `indent`, or all its
spaces if that is 0. Gives the line breaks, and the deepest column if it is more than `deepest`. -/
def readBreaks (start : Mark) (indent : Nat) :
    Nat → Nat → Cursor → Except Fault (List Char × Nat × Cursor)
  | 0, deepest, c => .ok ([], deepest, c)
  | fuel + 1, deepest, c => do
    let spaces := (c.rest.takeWhile (· == ' ')).length
    let c := c.skip (if indent = 0 then spaces else min spaces (indent - c.mark.column))
    let deepest := max deepest c.mark.column
    match c.rest with
    | [] => return ([], deepest, c)
    | d :: _ =>
      if d = '\t' ∧ (indent = 0 ∨ c.mark.column < indent) then
        throw (.inside .blockScalar start .tabInBlockScalar c.mark)
      if !isBreak d then return ([], deepest, c)
      let (breaks, deepest, c) ← readBreaks start indent fuel deepest c.nextLine
      return (lineBreak d :: breaks, deepest, c)

/-- The lines of a scalar so far. -/
structure Lines where
  text : List Char
  /-- The line break after the last line. -/
  lineEnd : Option Char
  /-- Those of the empty lines after it. -/
  emptyLines : List Char
  /-- The last line begins with a space. -/
  isSpaced : Bool

namespace Lines

/-- What comes of a line break before another line. -/
def joint (folded spaced : Bool) (lines : Lines) : List Char :=
  if folded && lines.lineEnd == some '\n' && !lines.isSpaced && !spaced then
    if lines.emptyLines.isEmpty then [' '] else []
  else lines.lineEnd.toList

/-- The scalar of all lines. -/
def chomp (chomping : Chomping) (lines : Lines) : List Char :=
  match chomping with
  | .strip => lines.text
  | .clip => lines.text ++ lines.lineEnd.toList
  | .keep => lines.text ++ lines.lineEnd.toList ++ lines.emptyLines

end Lines

/-- Reads lines that are indented by `indent`, each from its first character on. -/
def readLines (folded : Bool) (start : Mark) (indent : Nat) :
    Nat → Lines → Cursor → Except Fault (Lines × Cursor)
  | 0, lines, c => .ok (lines, c)
  | fuel + 1, lines, c => do
    if c.mark.column ≠ indent ∨ c.rest.isEmpty then return (lines, c)
    let isSpaced := c.rest.head?.any isSpace
    let line := c.rest.takeWhile (!isBreak ·)
    let text := lines.text ++ lines.joint folded isSpaced ++ lines.emptyLines ++ line
    let c := c.skip line.length
    let lineEnd := c.rest.head?.map lineBreak
    let c := if c.rest.isEmpty then c else c.nextLine
    let (emptyLines, _, c) ← readBreaks start indent c.rest.length 0 c
    readLines folded start indent fuel ⟨text, lineEnd, emptyLines, isSpaced⟩ c

/-- The block scalar at a place, in a block collection at the column `outer`; -1 is none. -/
def read (folded : Bool) (outer : Int) (c : Cursor) : Except Fault (Scalar × Cursor) := do
  let start := c.mark
  let (chomping, increment, c) ← readHeader start c.next
  let c ← c.endLine .blockScalar start
  let known := (increment.map ((max outer 0).toNat + ·)).getD 0
  let (emptyLines, deepest, c) ← readBreaks start known (c.rest.length + 1) 0 c
  let indent := if known = 0 then max deepest (max (outer + 1).toNat 1) else known
  let (lines, c) ←
    readLines folded start indent (c.rest.length + 1) ⟨[], none, emptyLines, false⟩ c
  return (⟨lines.chomp chomping, c.mark, true⟩, c)

end ScheduledScaling.Yaml.BlockScalar
