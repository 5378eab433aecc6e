/-!
Places in a YAML text, and what can be wrong with such a text. A fault tells what is wrong, where,
and often what was being read and where that began. Lines and columns are counted from 1 in a
message, and the first place of a text is not mentioned.
-/
namespace ScheduledScaling.Yaml

/-- A place in a text: the characters before it, and its line and column, counted from 0. -/
structure Mark where
  index : Nat
  line : Nat
  column : Nat
  deriving DecidableEq, Repr, Inhabited

namespace Mark

def origin : Mark := ⟨0, 0, 0⟩

/-- Whether two marks show the same place. -/
def isAt (a b : Mark) : Bool := a.line = b.line && a.column = b.column

/-- A place at the end of a message. -/
def suffix (m : Mark) : String :=
  if m.isAt origin then ""
  else " at line " ++ toString (m.line + 1) ++ " column " ++ toString (m.column + 1)

end Mark

inductive Problem where
  | controlCharacter
  | documentMark
  | duplicateHandle
  | duplicateVersion
  | endOfText
  | entryNotAllowed
  | incompatibleVersion
  | keyNotAllowed
  | leadingOctet
  | longVersion
  | noAnchorName
  | noBlank
  | noBlankOrBreak
  | noColon
  | noDirectiveName
  | noDocumentStart
  | noEntry
  | noExclamation
  | noHexDigits
  | noLineEnd
  | noListEnd
  | noNode
  | noOctet
  | noTagAddress
  | noTagEnd
  | noToken
  | noVersion
  | noVersionPoint
  | notACharacter
  | severalDocuments
  | strangeDirectiveName
  | tabIndent
  | tabInBlockScalar
  | trailingOctet
  | undefinedHandle
  | unexpectedColon
  | unknownAnchor
  | unknownDirective
  | unknownEscape
  | valueNotAllowed
  | zeroIndent
  deriving DecidableEq, Repr

def Problem.message : Problem → String
  | controlCharacter => "control characters are not allowed"
  | documentMark => "found unexpected document indicator"
  | duplicateHandle => "found duplicate %TAG directive"
  | duplicateVersion => "found duplicate %YAML directive"
  | endOfText => "found unexpected end of stream"
  | entryNotAllowed => "block sequence entries are not allowed in this context"
  | incompatibleVersion => "found incompatible YAML document"
  | keyNotAllowed => "mapping keys are not allowed in this context"
  | leadingOctet => "found an incorrect leading UTF-8 octet"
  | longVersion => "found extremely long version number"
  | noAnchorName => "did not find expected alphabetic or numeric character"
  | noBlank => "did not find expected whitespace"
  | noBlankOrBreak => "did not find expected whitespace or line break"
  | noColon => "could not find expected ':'"
  | noDirectiveName => "could not find expected directive name"
  | noDocumentStart => "did not find expected <document start>"
  | noEntry => "did not find expected '-' indicator"
  | noExclamation => "did not find expected '!'"
  | noHexDigits => "did not find expected hexdecimal number"
  | noLineEnd => "did not find expected comment or line break"
  | noListEnd => "did not find expected ',' or ']'"
  | noNode => "did not find expected node content"
  | noOctet => "did not find URI escaped octet"
  | noTagAddress => "did not find expected tag URI"
  | noTagEnd => "did not find the expected '>'"
  | noToken => "found character that cannot start any token"
  | noVersion => "did not find expected version number"
  | noVersionPoint => "did not find expected digit or '.' character"
  | notACharacter => "found invalid Unicode character escape code"
  | severalDocuments => "deserializing from YAML containing more than one document is not supported"
  | strangeDirectiveName => "found unexpected non-alphabetical character"
  | tabIndent => "found a tab character that violates indentation"
  | tabInBlockScalar => "found a tab character where an indentation space is expected"
  | trailingOctet => "found an incorrect trailing UTF-8 octet"
  | undefinedHandle => "found undefined tag handle"
  | unexpectedColon => "found unexpected ':'"
  | unknownAnchor => "unknown anchor"
  | unknownDirective => "found unknown directive name"
  | unknownEscape => "found unknown escape character"
  | valueNotAllowed => "mapping values are not allowed in this context"
  | zeroIndent => "found an indentation indicator equal to 0"

/-- What was being read. -/
inductive Context where
  | reference
  | anchor
  | blockList
  | blockNode
  | blockScalar
  | directive
  | directiveHandle
  | directiveMark
  | directiveTarget
  | escape
  | flowList
  | flowNode
  | node
  | plainScalar
  | quotedScalar
  | simpleKey
  | tag
  | tagAddress
  | tagDirective
  | token
  | versionDirective
  deriving DecidableEq, Repr

def Context.message : Context → String
  | reference => "while scanning an alias"
  | anchor => "while scanning an anchor"
  | blockList => "while parsing a block collection"
  | blockNode => "while parsing a block node"
  | blockScalar => "while scanning a block scalar"
  | directive => "while scanning a directive"
  | directiveHandle => "while parsing a tag directive"
  | directiveMark => "while scanning a tag directive"
  | directiveTarget => "while parsing a %TAG directive"
  | escape => "while parsing a quoted scalar"
  | flowList => "while parsing a flow sequence"
  | flowNode => "while parsing a flow node"
  | node => "while parsing a node"
  | plainScalar => "while scanning a plain scalar"
  | quotedScalar => "while scanning a quoted scalar"
  | simpleKey => "while scanning a simple key"
  | tag => "while scanning a tag"
  | tagAddress => "while parsing a tag"
  | tagDirective => "while scanning a %TAG directive"
  | token => "while scanning for the next token"
  | versionDirective => "while scanning a %YAML directive"

/-- Where a fault is: at a mark, or at a byte of a text that has no marks yet. -/
inductive Place where
  | mark (m : Mark)
  | byte (offset : Nat)
  deriving DecidableEq, Repr

def Place.suffix : Place → String
  | mark m => m.suffix
  | byte 0 => ""
  | byte offset => " at position " ++ toString offset

def Place.isAt : Place → Mark → Bool
  | mark m, other => m.isAt other
  | byte _, other => Mark.origin.isAt other

structure Fault where
  problem : Problem
  place : Place
  context : Option (Context × Mark)
  deriving DecidableEq, Repr

namespace Fault

/-- A fault in something that is being read. -/
def inside (context : Context) (start : Mark) (problem : Problem) (m : Mark) : Fault :=
  ⟨problem, .mark m, some (context, start)⟩

def plain (problem : Problem) (m : Mark) : Fault := ⟨problem, .mark m, none⟩

def message (f : Fault) : String :=
  f.problem.message ++ f.place.suffix ++
    match f.context with
    | none => ""
    | some (context, start) =>
      ", " ++ context.message ++ (if f.place.isAt start then "" else start.suffix)

end Fault

end ScheduledScaling.Yaml
