import ScheduledScaling.Text.Blank
import ScheduledScaling.Yaml.Integers
/-!
JSON values as YAML documents in block style. Members of a map are indented by two columns, items
of a list by none under the key of the list. A string stands plain where it reads back as itself,
and otherwise in quotes.
-/
namespace ScheduledScaling.Yaml

/-- The words that some readers take for truth values. -/
def oldBooleans : List String :=
  ["y", "Y", "yes", "Yes", "YES", "n", "N", "no", "No", "NO", "on", "On", "ON", "off", "Off", "OFF"]

/-- Whether a plain scalar of some characters is no string. -/
def looksTyped (s : String) : Bool :=
  s.isEmpty || isNothing s || (bool? s).isSome || (integer? s.toList).isSome ||
    (float? s.toList).isSome || hasSpareZero s.toList || oldBooleans.contains s

/-- Whether characters end a plain scalar early, wherever they stand in it. -/
def hasStop : List Char → Bool
  | [] => false
  | [c] => c == ':'
  | c :: d :: rest => (c == ':' && isGap d) || (isGap c && d == '#') || hasStop (d :: rest)

def canStandPlain (s : List Char) : Bool :=
  !hasStop s && !s.head?.any isGap && !s.getLast?.any isGap &&
    Scanner.startsPlain false ⟨.origin, s⟩ && !Cursor.isAnyDocumentMark ⟨.origin, s⟩

def quotedText (s : String) : String :=
  "'" ++ String.join (s.toList.map fun c => if c = '\'' then "''" else c.toString) ++ "'"

/-- Whether a string is written line by line. -/
def isBlock (s : String) : Bool :=
  s.toList.contains '\n' && s.toList.all fun c => isTextChar c && (c == '\n' || !isBreak c) &&
    c != '\t'

/-- A string on one line. -/
def lineText (s : String) : String :=
  if s.toList.any fun c => isBreak c || !isTextChar c then Json.quoted s
  else if looksTyped s || !canStandPlain s.toList then quotedText s
  else s

/-- What stands before the lines of a string: how many line breaks it ends with. -/
def blockHead (s : String) : String :=
  match s.toList.reverse with
  | '\n' :: '\n' :: _ => "|+"
  | '\n' :: _ => "|"
  | _ => "|-"

def indented (lines : List String) : List String :=
  lines.map fun line => if line.isEmpty then "" else "  " ++ line

def blockLines (s : String) : List String :=
  let lines := (Text.pieces (· == '\n') s.toList).map String.ofList
  if lines.getLast? = some "" then lines.dropLast else lines

/-- A value after a key: what stands on the line of the key, and the lines below. -/
structure Layout where
  head : Option String
  below : List String

/-- A value on one line, or a string in lines; none for collections that have values. -/
def Layout.simple? : Json → Option Layout
  | .null => some ⟨some "null", []⟩
  | .bool b => some ⟨some (if b then "true" else "false"), []⟩
  | .number n => some ⟨some n.text, []⟩
  | .string s =>
    if isBlock s then some ⟨some (blockHead s), indented (blockLines s)⟩
    else some ⟨some (lineText s), []⟩
  | .array [] => some ⟨some "[]", []⟩
  | .object [] => some ⟨some "\x7b\x7d", []⟩
  | _ => none

/-- Lines of a member of a map. -/
def Layout.member (key : String) (l : Layout) : List String :=
  (lineText key ++ ":" ++ (l.head.map fun head => " " ++ head).getD "") :: l.below

/-- Lines of an item of a list. -/
def itemLines : List String → List String
  | [] => []
  | first :: more => ("- " ++ first) :: indented more

mutual

/-- The lines of a value that stands alone. -/
def lines : Json → List String
  | .array (item :: rest) => listLines (item :: rest)
  | .object (member :: rest) => mapLines (member :: rest)
  | v => ((Layout.simple? v).map fun l => l.head.toList ++ l.below).getD []

def listLines : List Json → List String
  | [] => []
  | item :: rest => itemLines (lines item) ++ listLines rest

def mapLines : List (String × Json) → List String
  | [] => []
  | (key, value) :: rest =>
    let layout : Layout := match value with
      | .array (item :: more) => ⟨none, listLines (item :: more)⟩
      | .object (member :: more) => ⟨none, indented (mapLines (member :: more))⟩
      | v => (Layout.simple? v).getD ⟨none, []⟩
    layout.member key ++ mapLines rest

end

/-- The document of a value. -/
def text (v : Json) : String := String.join ((lines v).map fun line => line ++ "\n")

end ScheduledScaling.Yaml
