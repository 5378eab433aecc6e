/-!
Places in JSON texts, and what can be wrong there. A fault is reported at a byte offset; mostly it
is that of the byte after the one that is wrong, so that the byte counts as read.
-/
namespace ScheduledScaling

/-- What can be wrong with a JSON text. -/
inductive SyntaxProblem where
  | endInList
  | endInObject
  | endInString
  | endInValue
  | expectedColon
  | expectedListEnd
  | expectedObjectEnd
  | expectedIdent
  | expectedValue
  | invalidEscape
  | invalidNumber
  | numberOutOfRange
  | controlInString
  | keyNotString
  | loneSurrogate
  | trailingComma
  | trailingText
  | cutEscape
  | tooDeep
  deriving DecidableEq, Repr

namespace SyntaxProblem

def message : SyntaxProblem → String
  | endInList => "EOF while parsing a list"
  | endInObject => "EOF while parsing an object"
  | endInString => "EOF while parsing a string"
  | endInValue => "EOF while parsing a value"
  | expectedColon => "expected `:`"
  | expectedListEnd => "expected `,` or `]`"
  | expectedObjectEnd => "expected `,` or `\x7d`"
  | expectedIdent => "expected ident"
  | expectedValue => "expected value"
  | invalidEscape => "invalid escape"
  | invalidNumber => "invalid number"
  | numberOutOfRange => "number out of range"
  | controlInString => "control character (\\u0000-\\u001F) found while parsing a string"
  | keyNotString => "key must be a string"
  | loneSurrogate => "lone leading surrogate in hex escape"
  | trailingComma => "trailing comma"
  | trailingText => "trailing characters"
  | cutEscape => "unexpected end of hex escape"
  | tooDeep => "recursion limit exceeded"

end SyntaxProblem

/-- A fault in a text, and the byte offset at which it is reported. -/
structure SyntaxFault where
  problem : SyntaxProblem
  offset : Nat
  deriving DecidableEq, Repr

namespace Document

/-- A place in a text: its byte offset and what follows. -/
structure Cursor where
  offset : Nat
  rest : List Char
  deriving Repr

namespace Cursor

/-- How many bytes a text takes. -/
def byteCount : List Char → Nat
  | [] => 0
  | c :: rest => c.utf8Size + byteCount rest

def isSpace (c : Char) : Bool := c == ' ' || c == '\n' || c == '\t' || c == '\r'

def skip (c : Cursor) (n : Nat) : Cursor :=
  ⟨c.offset + byteCount (c.rest.take n), c.rest.drop n⟩

def skipSpaces (c : Cursor) : Cursor := c.skip (c.rest.takeWhile isSpace).length

/-- A fault at the next byte. -/
def faultHere (c : Cursor) (p : SyntaxProblem) : SyntaxFault :=
  ⟨p, if c.rest.isEmpty then c.offset else c.offset + 1⟩

/-- A fault before the next byte. -/
def faultBefore (c : Cursor) (p : SyntaxProblem) : SyntaxFault := ⟨p, c.offset⟩

/-- Looks for the end of a list: what is found instead of it, if anything, and how far the search
goes. A comma is passed, since none may stand there. -/
def endOfList (c : Cursor) : Option SyntaxProblem × Cursor :=
  let c := c.skipSpaces
  match c.rest with
  | [] => (some .endInList, c)
  | ']' :: _ => (none, c.skip 1)
  | ',' :: _ =>
    let c := (c.skip 1).skipSpaces
    (some (if c.rest.head? = some ']' then .trailingComma else .trailingText), c)
  | _ => (some .trailingText, c)

/-- How far the search for the end of an object goes. -/
def endOfObject (c : Cursor) : Cursor :=
  let c := c.skipSpaces
  if c.rest.head? = some '\x7d' then c.skip 1 else c

end Cursor

end Document

end ScheduledScaling
