import ScheduledScaling.Yaml.Fault
/-!
Scalars of a YAML text: plain ones, which end where the text around them goes on, and quoted
ones. Both may run over several lines; a line break inside is a space, and each further one is a
line break of the scalar.
-/
namespace ScheduledScaling.Yaml

/-- A place in a text and what follows. -/
structure Cursor where
  mark : Mark
  rest : List Char
  deriving Repr, Inhabited

def isSpace (c : Char) : Bool := c == ' ' || c == '\t'

def isBreak (c : Char) : Bool :=
  c == '\n' || c == '\r' || c == '\x85' || c == '\u2028' || c == '\u2029'

def isGap (c : Char) : Bool := isSpace c || isBreak c

/-- Whether a character may stand in a name. -/
def isNameChar (c : Char) : Bool := c.isAlphanum || c == '_' || c == '-'

/-- The value of a hexadecimal digit. -/
def hexValue? (c : Char) : Option Nat :=
  if c.isDigit then some (c.toNat - 48)
  else if 'a' ≤ c ∧ c ≤ 'f' then some (c.toNat - 87)
  else if 'A' ≤ c ∧ c ≤ 'F' then some (c.toNat - 55)
  else none

/-- A line break as it stands in a scalar. -/
def lineBreak (c : Char) : Char := if c == '\u2028' || c == '\u2029' then c else '\n'

/-- The marks of collections that stand in brackets. -/
def isFlowMark (c : Char) : Bool :=
  c == ',' || c == '[' || c == ']' || c == '\x7b' || c == '\x7d'

namespace Cursor

def skip (n : Nat) (c : Cursor) : Cursor :=
  ⟨⟨c.mark.index + n, c.mark.line, c.mark.column + n⟩, c.rest.drop n⟩

def next (c : Cursor) : Cursor := c.skip 1

/-- Passes over characters of one kind, which are no line breaks. -/
def skipWhile (p : Char → Bool) (c : Cursor) : Cursor := c.skip (c.rest.takeWhile p).length

/-- The place after a line break. -/
def nextLine (c : Cursor) : Cursor :=
  let size := if c.rest.take 2 = ['\r', '\n'] then 2 else 1
  ⟨⟨c.mark.index + size, c.mark.line + 1, 0⟩, c.rest.drop size⟩

/-- Passes over the end of a line, on which only spaces and a comment are left. -/
def endLine (context : Context) (start : Mark) (c : Cursor) : Except Fault Cursor :=
  let c := c.skipWhile isSpace
  let c := if c.rest.head? = some '#' then c.skipWhile (!isBreak ·) else c
  match c.rest with
  | [] => .ok c
  | d :: _ =>
    if isBreak d then .ok c.nextLine else .error (.inside context start .noLineEnd c.mark)

/-- Whether a gap or the end of the text is some characters ahead. -/
def isGapAt (n : Nat) (c : Cursor) : Bool := c.rest[n]?.all isGap

/-- Whether a line of only a mark between documents begins here. -/
def isDocumentMark (c : Cursor) (word : List Char) : Bool :=
  c.mark.column == 0 && c.rest.take 3 == word && c.isGapAt 3

def isAnyDocumentMark (c : Cursor) : Bool :=
  c.isDocumentMark ['-', '-', '-'] || c.isDocumentMark ['.', '.', '.']

end Cursor

/-! ## Gaps -/

/-- What stands between two words: spaces, or line breaks; a joined gap began with a line break
that does not count. -/
structure Gap where
  spaces : List Char
  breaks : List Char
  joined : Bool

namespace Gap

def none : Gap := ⟨[], [], false⟩

def isBroken (g : Gap) : Bool := g.joined || !g.breaks.isEmpty

/-- What a gap is in the scalar. -/
def text (g : Gap) : List Char :=
  if g.joined then g.breaks
  else
    match g.breaks with
    | [] => g.spaces
    | ['\n'] => [' ']
    | '\n' :: more => more
    | breaks => breaks

/-- Reads on to the next word. A tab may not indent a line by less than `indent`. -/
def read (start : Mark) (indent : Nat) : Nat → Cursor → Gap → Except Fault (Gap × Cursor)
  | 0, c, g => .ok (g, c)
  | fuel + 1, c, g =>
    match c.rest with
    | [] => .ok (g, c)
    | d :: _ =>
      if isBreak d then
        read start indent fuel c.nextLine
          { g with spaces := [], breaks := g.breaks ++ [lineBreak d] }
      else if !isSpace d then .ok (g, c)
      else if !g.isBroken then
        read start indent fuel c.next { g with spaces := g.spaces ++ [d] }
      else if d = '\t' ∧ c.mark.column < indent then
        .error (.inside .plainScalar start .tabIndent c.mark)
      else read start indent fuel c.next g

end Gap

/-- How a scalar is written. -/
inductive ScalarStyle where
  | plain
  | quoted
  /-- A block scalar that keeps its line breaks. -/
  | literal
  /-- A block scalar whose lines are joined. -/
  | folded
  deriving DecidableEq, Repr

/-- A scalar's characters, where it stops, and whether a line break followed. -/
structure Scalar where
  text : List Char
  stop : Mark
  isBroken : Bool

/-! ## Plain scalars -/

namespace Plain

def isEnd (flow : Bool) (c : Cursor) : Bool :=
  match c.rest with
  | [] => true
  | d :: _ => isGap d || (d == ':' && c.isGapAt 1) || (flow && isFlowMark d)

/-- A colon that neither ends a word nor belongs to it. -/
def isBadColon (flow : Bool) (c : Cursor) : Bool :=
  match c.rest with
  | ':' :: d :: _ => flow && (isFlowMark d || d == '?')
  | _ => false

/-- The characters up to a gap or an end. -/
def readWord (flow : Bool) (start : Mark) : Nat → Cursor → Except Fault (List Char × Cursor)
  | 0, c => .ok ([], c)
  | fuel + 1, c =>
    match c.rest with
    | [] => .ok ([], c)
    | d :: _ =>
      if isGap d then .ok ([], c)
      else if isBadColon flow c then .error (.inside .plainScalar start .unexpectedColon c.mark)
      else if isEnd flow c then .ok ([], c)
      else do
        let (word, c) ← readWord flow start fuel c.next
        return (d :: word, c)

/-- The words of a scalar from a place on; `before` is the scalar up to the gap before. -/
def readWords (flow : Bool) (indent : Nat) (start : Mark) :
    Nat → Scalar → Gap → Cursor → Except Fault (Scalar × Cursor)
  | 0, before, gap, c => .ok ({ before with isBroken := gap.isBroken }, c)
  | fuel + 1, before, gap, c => do
    let stopped (gap : Gap) (c : Cursor) := (({ before with isBroken := gap.isBroken } : Scalar), c)
    if c.isAnyDocumentMark || c.rest.head? == some '#' then return stopped gap c
    let (word, after) ← readWord flow start c.rest.length c
    if word.isEmpty then return stopped gap c
    let scalar : Scalar := ⟨before.text ++ gap.text ++ word, after.mark, false⟩
    let (gap, next) ← Gap.read start indent after.rest.length after Gap.none
    if next.mark = after.mark then return (scalar, after)
    if !flow && next.mark.column < indent then
      return ({ scalar with isBroken := gap.isBroken }, next)
    readWords flow indent start fuel scalar gap next

/-- The plain scalar at a place, which is not indented by less than `indent`. -/
def read (flow : Bool) (indent : Nat) (c : Cursor) : Except Fault (Scalar × Cursor) :=
  readWords flow indent c.mark (c.rest.length + 1) ⟨[], c.mark, false⟩ Gap.none c

end Plain

/-! ## Quoted scalars -/

namespace QuotedScalar

/-- The characters that are written as a backslash and one other character. -/
def escapes : List (Char × Char) :=
  [('0', '\x00'), ('a', '\x07'), ('b', '\x08'), ('t', '\t'), ('\t', '\t'), ('n', '\n'),
    ('v', '\x0b'), ('f', '\x0c'), ('r', '\r'), ('e', '\x1b'), (' ', ' '), ('"', '"'), ('/', '/'),
    ('\\', '\\'), ('N', '\x85'), ('_', '\xa0'), ('L', '\u2028'), ('P', '\u2029')]

/-- How many hexadecimal digits follow a backslash and a character. -/
def codeLength? : Char → Option Nat
  | 'x' => some 2
  | 'u' => some 4
  | 'U' => some 8
  | _ => none

/-- The character of a code. -/
def readCode (start : Mark) (length : Nat) (c : Cursor) : Except Fault (Char × Cursor) :=
  match (c.rest.take length).mapM hexValue? with
  | some digits =>
    let code := digits.foldl (fun n d => 16 * n + d) 0
    if digits.length < length then .error (.inside .escape start .noHexDigits c.mark)
    else if code.isValidChar then .ok (Char.ofNat code, c.skip length)
    else .error (.inside .escape start .notACharacter c.mark)
  | none => .error (.inside .escape start .noHexDigits c.mark)

/-- The character that an escape stands for; the cursor is at the backslash. -/
def readEscape (start : Mark) (c : Cursor) : Except Fault (Char × Cursor) :=
  match c.rest with
  | _ :: d :: _ =>
    match escapes.lookup d, codeLength? d with
    | some e, _ => .ok (e, c.skip 2)
    | none, some length => readCode start length (c.skip 2)
    | none, none => .error (.inside .escape start .unknownEscape c.mark)
  | _ => .error (.inside .escape start .unknownEscape c.mark)

/-- The characters up to a gap or the closing quote, and whether the gap is joined. -/
def readWord (quote : Char) (start : Mark) :
    Nat → Cursor → Except Fault (List Char × Bool × Cursor)
  | 0, c => .ok ([], false, c)
  | fuel + 1, c =>
    match c.rest with
    | [] => .ok ([], false, c)
    | d :: more =>
      if isGap d then .ok ([], false, c)
      else if d = '\'' ∧ quote = '\'' ∧ more.head? = some '\'' then do
        let (word, joined, c) ← readWord quote start fuel (c.skip 2)
        return ('\'' :: word, joined, c)
      else if d = quote then .ok ([], false, c)
      else if d = '\\' ∧ quote = '"' then
        if more.head?.any isBreak then .ok ([], true, c.next.nextLine)
        else do
          let (e, c) ← readEscape start c
          let (word, joined, c) ← readWord quote start fuel c
          return (e :: word, joined, c)
      else do
        let (word, joined, c) ← readWord quote start fuel c.next
        return (d :: word, joined, c)

/-- The rest of a scalar after its opening quote or a gap. -/
def readWords (quote : Char) (start : Mark) :
    Nat → List Char → Cursor → Except Fault (Scalar × Cursor)
  | 0, _, c => .error (.inside .quotedScalar start .endOfText c.mark)
  | fuel + 1, text, c => do
    if c.isAnyDocumentMark then
      throw (.inside .quotedScalar start .documentMark c.mark)
    if c.rest.isEmpty then throw (.inside .quotedScalar start .endOfText c.mark)
    let (word, joined, c) ← readWord quote start c.rest.length c
    if c.rest.head? = some quote then return (⟨text ++ word, c.next.mark, false⟩, c.next)
    let (gap, c) ← Gap.read start 0 c.rest.length c { Gap.none with joined }
    readWords quote start fuel (text ++ word ++ gap.text) c

/-- The quoted scalar at a place. -/
def read (quote : Char) (c : Cursor) : Except Fault (Scalar × Cursor) :=
  readWords quote c.mark (c.rest.length + 1) [] c.next

end QuotedScalar

end ScheduledScaling.Yaml
