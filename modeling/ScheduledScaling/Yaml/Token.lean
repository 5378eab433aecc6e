import ScheduledScaling.Yaml.BlockScalar
import ScheduledScaling.Yaml.Directive
/-!
Tokens of a YAML text. Indentation opens and closes collections of its own, so some tokens stand
for no character; and a value may turn out to be a key only when a colon follows on its line, so
tokens wait in a queue until that is known.
-/
namespace ScheduledScaling.Yaml

inductive TokenKind where
  | streamEnd
  | directive (d : Directive)
  | documentStart
  | documentEnd
  | blockListStart
  | blockMapStart
  | blockEnd
  | listStart
  | listEnd
  | mapStart
  | mapEnd
  | blockEntry
  | flowEntry
  | key
  | value
  | reference (name : String)
  | anchor (name : String)
  | tag (t : WrittenTag)
  | scalar (text : String) (style : ScalarStyle)
  deriving DecidableEq, Repr, Inhabited

structure Token where
  kind : TokenKind
  start : Mark
  stop : Mark
  deriving Repr, Inhabited

/-- A token that a key may begin with. -/
structure SimpleKey where
  /-- The number of tokens before it. -/
  number : Nat
  /-- Nothing but a key can stand at its place. -/
  isRequired : Bool
  mark : Mark
  deriving Repr

structure Scanner where
  cursor : Cursor
  /-- The column of the innermost block collection; -1 outside of any. -/
  indent : Int
  /-- The columns of the collections around it. -/
  outer : List Int
  /-- The possible key on every level of brackets, the innermost first. -/
  keys : List (Option SimpleKey)
  /-- Whether a key may begin here. -/
  keyAllowed : Bool
  /-- The tokens that wait. -/
  queue : List Token
  /-- How many tokens were taken from the queue. -/
  taken : Nat

/-- A step of the scanner, which may find a fault. -/
abbrev Scan := StateT Scanner (Except Fault)

namespace Scanner

def inFlow (s : Scanner) : Bool := 1 < s.keys.length

def mark (s : Scanner) : Mark := s.cursor.mark

/-- The scanner before a text. -/
def start (text : List Char) : Scanner where
  cursor := ⟨.origin, text⟩
  indent := -1
  outer := []
  keys := [none]
  keyAllowed := true
  queue := []
  taken := 0

def emit (t : Token) : Scan Unit := modify fun s => { s with queue := s.queue ++ [t] }

/-- Puts a token before one that waits. -/
def insert (number : Nat) (t : Token) : Scan Unit :=
  modify fun s => { s with queue := s.queue.insertIdx (number - s.taken) t }

def allowKey (allowed : Bool) : Scan Unit := modify fun s => { s with keyAllowed := allowed }

/-- Emits a token for some characters. -/
def emitSkip (kind : TokenKind) (n : Nat) : Scan Unit := do
  let s ← get
  let after := s.cursor.skip n
  set { s with cursor := after }
  emit ⟨kind, s.mark, after.mark⟩

/-! ## Keys -/

/-- Gives up a possible key. -/
def giveUp (m : Mark) : Option SimpleKey → Except Fault (Option SimpleKey)
  | none => .ok none
  | some k => if k.isRequired then .error (.inside .simpleKey k.mark .noColon m) else .ok none

/-- Gives up the possible key of the innermost level. -/
def forgetKey : Scan Unit := do
  let s ← get
  match s.keys with
  | [] => return
  | k :: outer => set { s with keys := (← giveUp s.mark k) :: outer }

/-- Gives up the keys that began on an earlier line or too far back. -/
def dropStale : Scan Unit := do
  let s ← get
  let keys ← s.keys.mapM fun
    | none => pure none
    | some k =>
      if k.mark.line < s.mark.line || k.mark.index + 1024 < s.mark.index then
        liftM (giveUp s.mark (some k))
      else pure (some k)
  set { s with keys }

/-- Notes that a key may begin with the next token. -/
def saveKey : Scan Unit := do
  let s ← get
  if s.keyAllowed then
    forgetKey
    let key : SimpleKey :=
      ⟨s.taken + s.queue.length, !s.inFlow && s.indent == s.mark.column, s.mark⟩
    modify fun s => { s with keys := some key :: s.keys.drop 1 }

/-! ## Indentation -/

/-- Opens a block collection at a column, if the text is indented more than before. -/
def openBlock (column : Nat) (kind : TokenKind) (m : Mark) (number : Option Nat) :
    Scan Unit := do
  let s ← get
  if !s.inFlow && s.indent < column then
    set { s with indent := (column : Int), outer := s.indent :: s.outer }
    match number with
    | none => emit ⟨kind, m, m⟩
    | some n => insert n ⟨kind, m, m⟩

/-- The block collections that end before a column, and those that remain. -/
def closed (column indent : Int) : List Int → Nat × Int × List Int
  | [] => if column < indent then (1, -1, []) else (0, indent, [])
  | next :: outer =>
    if column < indent then
      let (n, indent, outer) := closed column next outer
      (n + 1, indent, outer)
    else (0, indent, next :: outer)

/-- Closes the block collections that are indented more than a column. -/
def closeBlocks (column : Int) : Scan Unit := do
  let s ← get
  if !s.inFlow then
    let (n, indent, outer) := closed column s.indent s.outer
    let ends : List Token := List.replicate n ⟨.blockEnd, s.mark, s.mark⟩
    set { s with indent, outer, queue := s.queue ++ ends }

/-! ## Single tokens -/

/-- Passes over spaces, comments and line breaks. -/
def skipGaps : Nat → Scanner → Scanner
  | 0, s => s
  | fuel + 1, s =>
    match s.cursor.rest with
    | [] => s
    | d :: _ =>
      if d = ' ' ∨ d = '\t' ∧ (s.inFlow ∨ s.keyAllowed = false) then
        skipGaps fuel { s with cursor := s.cursor.next }
      else if d = '#' then
        let size := (s.cursor.rest.takeWhile fun c => !isBreak c).length
        skipGaps fuel { s with cursor := s.cursor.skip size }
      else if isBreak d then
        let keyAllowed := s.keyAllowed || !s.inFlow
        skipGaps fuel { s with cursor := s.cursor.nextLine, keyAllowed }
      else s

def fetchStreamEnd : Scan Unit := do
  modify fun s =>
    let m := s.mark
    if m.column = 0 then s
    else { s with cursor := ⟨⟨m.index, m.line + 1, 0⟩, s.cursor.rest⟩ }
  closeBlocks (-1)
  forgetKey
  allowKey false
  emitSkip .streamEnd 0

def fetchDocumentMark (kind : TokenKind) : Scan Unit := do
  closeBlocks (-1)
  forgetKey
  allowKey false
  emitSkip kind 3

/-- A directive, which ends the block collections before it. -/
def fetchDirective : Scan Unit := do
  closeBlocks (-1)
  forgetKey
  allowKey false
  let s ← get
  let (directive, stop, c) ← Directive.read s.cursor
  set { s with cursor := c }
  emit ⟨.directive directive, s.mark, stop⟩

def fetchFlowStart (kind : TokenKind) : Scan Unit := do
  saveKey
  modify fun s => { s with keys := none :: s.keys }
  allowKey true
  emitSkip kind 1

def fetchFlowEnd (kind : TokenKind) : Scan Unit := do
  forgetKey
  modify fun s => if s.inFlow then { s with keys := s.keys.drop 1 } else s
  allowKey false
  emitSkip kind 1

def fetchFlowEntry : Scan Unit := do
  forgetKey
  allowKey true
  emitSkip .flowEntry 1

def fetchBlockEntry : Scan Unit := do
  let s ← get
  if !s.inFlow then
    if !s.keyAllowed then throw (.plain .entryNotAllowed s.mark)
    openBlock s.mark.column .blockListStart s.mark none
  forgetKey
  allowKey true
  emitSkip .blockEntry 1

def fetchKey : Scan Unit := do
  let s ← get
  if !s.inFlow then
    if !s.keyAllowed then throw (.plain .keyNotAllowed s.mark)
    openBlock s.mark.column .blockMapStart s.mark none
  forgetKey
  allowKey !s.inFlow
  emitSkip .key 1

/-- A colon makes a key of what may be one. -/
def fetchValue : Scan Unit := do
  let s ← get
  match s.keys with
  | some k :: outer =>
    insert k.number ⟨.key, k.mark, k.mark⟩
    openBlock k.mark.column .blockMapStart k.mark (some k.number)
    modify fun s => { s with keys := none :: outer }
    allowKey false
  | _ =>
    if !s.inFlow then
      if !s.keyAllowed then throw (.plain .valueNotAllowed s.mark)
      openBlock s.mark.column .blockMapStart s.mark none
    allowKey !s.inFlow
  emitSkip .value 1

/-- Whether a name may end before a character. -/
def endsName (c : Char) : Bool :=
  isGap c || ['?', ':', ',', ']', '\x7d', '%', '@', '\x60'].contains c

/-- An anchor, or a reference to one. -/
def fetchName (context : Context) (kind : String → TokenKind) : Scan Unit := do
  saveKey
  allowKey false
  let s ← get
  let c := s.cursor.next
  let name := c.rest.takeWhile isNameChar
  let after := c.skip name.length
  if name.isEmpty || !after.rest.head?.all endsName then
    throw (.inside context s.mark .noAnchorName after.mark)
  set { s with cursor := after }
  emit ⟨kind (String.ofList name), s.mark, after.mark⟩

def fetchTag : Scan Unit := do
  saveKey
  allowKey false
  let s ← get
  let (tag, c) ← WrittenTag.read s.inFlow s.cursor
  set { s with cursor := c }
  emit ⟨.tag tag, s.mark, c.mark⟩

/-- Takes a scalar and the place after it; a key may begin there on a new line. -/
def emitScalar (style : ScalarStyle) (found : Except Fault (Scalar × Cursor)) : Scan Unit := do
  let s ← get
  let (scalar, c) ← found
  set { s with cursor := c, keyAllowed := scalar.isBroken }
  emit ⟨.scalar (String.ofList scalar.text) style, s.mark, scalar.stop⟩

def fetchQuoted (quote : Char) : Scan Unit := do
  saveKey
  emitScalar .quoted (QuotedScalar.read quote (← get).cursor)

def fetchPlain : Scan Unit := do
  saveKey
  let s ← get
  emitScalar .plain (Plain.read s.inFlow (s.indent + 1).toNat s.cursor)

def fetchBlockScalar (style : ScalarStyle) : Scan Unit := do
  forgetKey
  let s ← get
  emitScalar style (BlockScalar.read (style == .folded) s.indent s.cursor)

/-- The characters that no plain scalar begins with, three aside. -/
def isIndicator (c : Char) : Bool :=
  isFlowMark c ||
    ['#', '&', '*', '!', '|', '>', '\'', '"', '%', '@', '\x60'].contains c

/-- Whether a plain scalar begins at a place. -/
def startsPlain (flow : Bool) (c : Cursor) : Bool :=
  match c.rest with
  | [] => false
  | '-' :: more => !more.head?.any isSpace
  | d :: _ =>
    if d = '?' ∨ d = ':' then !flow && !c.isGapAt 1 else !isGap d && !isIndicator d

/-- Reads the next token, and with it those that stand for no character. -/
def fetch : Scan Unit := do
  modify fun s => s.skipGaps (s.cursor.rest.length + 1)
  dropStale
  let s ← get
  closeBlocks s.mark.column
  let c := s.cursor
  if c.mark.column = 0 ∧ c.rest.head? = some '%' then fetchDirective
  else if c.isDocumentMark ['-', '-', '-'] then fetchDocumentMark .documentStart
  else if c.isDocumentMark ['.', '.', '.'] then fetchDocumentMark .documentEnd
  else
    match c.rest with
    | [] => fetchStreamEnd
    | '[' :: _ => fetchFlowStart .listStart
    | '\x7b' :: _ => fetchFlowStart .mapStart
    | ']' :: _ => fetchFlowEnd .listEnd
    | '\x7d' :: _ => fetchFlowEnd .mapEnd
    | ',' :: _ => fetchFlowEntry
    | '*' :: _ => fetchName .reference .reference
    | '&' :: _ => fetchName .anchor .anchor
    | '!' :: _ => fetchTag
    | '\'' :: _ => fetchQuoted '\''
    | '"' :: _ => fetchQuoted '"'
    | d :: _ =>
      if d = '-' ∧ c.isGapAt 1 then fetchBlockEntry
      else if d = '?' ∧ (s.inFlow ∨ c.isGapAt 1) then fetchKey
      else if d = ':' ∧ (s.inFlow ∨ c.isGapAt 1) then fetchValue
      else if d = '|' ∧ !s.inFlow then fetchBlockScalar .literal
      else if d = '>' ∧ !s.inFlow then fetchBlockScalar .folded
      else if startsPlain s.inFlow c then fetchPlain
      else throw (.inside .token s.mark .noToken s.mark)

/-! ## The queue -/

/-- Reads on until it is known what the first token is. -/
def fill : Nat → Scan Unit
  | 0 => return
  | fuel + 1 => do
    if (← get).queue.isEmpty then
      fetch
      fill fuel
    else
      dropStale
      let s ← get
      if s.keys.any fun k => k.any fun k => k.number = s.taken then
        fetch
        fill fuel

/-- The next token, which stays. -/
def peek : Scan Token := do
  fill ((← get).cursor.rest.length + 2)
  return (← get).queue.headD default

/-- Drops the next token. -/
def drop : Scan Unit := modify fun s => { s with queue := s.queue.drop 1, taken := s.taken + 1 }

end Scanner

/-- Whether a character may stand in a text. -/
def isTextChar (c : Char) : Bool :=
  let n := c.toNat
  n == 9 || n == 10 || n == 13 || (32 ≤ n && n ≤ 126) || n == 0x85 ||
    (0xA0 ≤ n && n ≤ 0xFFFD && n != 0xFEFF) || 0x10000 ≤ n

/-- The byte offset of the first character that may not stand in a text. -/
def badOffset? : Nat → List Char → Option Nat
  | _, [] => none
  | offset, c :: rest =>
    if isTextChar c then badOffset? (offset + c.utf8Size) rest else some offset

/-- The scanner before a text that holds only characters of texts; a mark of the byte order at its
beginning is passed over. -/
def Scanner.ofText (text : String) : Except Fault Scanner :=
  let (offset, chars) : Nat × List Char := match text.toList with
    | '\ufeff' :: rest => (3, rest)
    | chars => (0, chars)
  match badOffset? offset chars with
  | some offset => .error ⟨.controlCharacter, .byte offset, none⟩
  | none => .ok (.start chars)

end ScheduledScaling.Yaml
