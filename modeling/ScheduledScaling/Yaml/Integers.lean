import ScheduledScaling.Yaml.Item
import ScheduledScaling.Yaml.Token
/-!
Lists of whole numbers in YAML. `readIntegers` gives the numbers of a text with one list of
numbers of 32 bits, or the first reason why it has none: a fault of the text, or a value of
another type. A text may begin with directives, which tell what the handles of its tags stand for.
-/
namespace ScheduledScaling.Yaml

/-- Why a text holds no list of numbers. -/
inductive Refusal where
  | fault (f : Fault)
  /-- The value at a mark is refused; items of the list have an index. -/
  | value (index : Option Nat) (text : String) (m : Mark)
  deriving Repr

def Refusal.message : Refusal → String
  | fault f => f.message
  | value none text m => text ++ m.suffix
  | value (some index) text m => ".[" ++ toString index ++ "]: " ++ text ++ m.suffix

/-- A scanner, and the values that have names, with their places. -/
structure Reader where
  scanner : Scanner
  named : List (String × Item × Mark)
  /-- The handles of tags and the beginnings of addresses that they stand for. -/
  handles : List (List Char × List Char)

abbrev Read := StateT Reader (Except Refusal)

namespace Read

def scan {α : Type} (step : Scan α) : Read α := do
  let r ← get
  match step.run r.scanner with
  | .error f => throw (.fault f)
  | .ok (a, scanner) =>
    set { r with scanner }
    return a

def peek : Read Token := scan Scanner.peek

def drop : Read Unit := scan Scanner.drop

/-! ## Values -/

/-- The value that a token begins, if one can begin there. -/
def content? (block : Bool) : TokenKind → Option Item
  | .scalar text style => some (.scalar text style none)
  | .listStart => some .list
  | .mapStart => some .map
  | .blockListStart => if block then some .list else none
  | .blockMapStart => if block then some .map else none
  | _ => none

/-- The name of the next token, if it is an anchor. -/
def anchor? : Read (Option String) := do
  match (← peek).kind with
  | .anchor name =>
    drop
    return some name
  | _ => return none

/-- The next token, if it is a tag. -/
def tag? : Read (Option (WrittenTag × Mark)) := do
  let token ← peek
  match token.kind with
  | .tag tag =>
    drop
    return some (tag, token.start)
  | _ => return none

/-- An anchor and a tag before a value, in either order. -/
def properties : Read (Option String × Option (WrittenTag × Mark)) := do
  match ← anchor? with
  | some name => return (some name, ← tag?)
  | none =>
    match ← tag? with
    | some tag => return (← anchor?, some tag)
    | none => return (none, none)

/-- What a tag of the value at `start` says; an exclamation mark alone says nothing. -/
def resolve (start : Mark) (tag : WrittenTag) (m : Mark) : Read (Option Tag) := do
  let address ←
    if tag.handle.isEmpty then pure tag.suffix
    else
      match (← get).handles.lookup tag.handle with
      | some target => pure (target ++ tag.suffix)
      | none => throw (.fault (.inside .node start .undefinedHandle m))
  return if address = ['!'] then none else some (.ofAddress address)

/-- The next value and its place. Of a collection no token is taken. -/
def node (block : Bool) : Read (Item × Mark) := do
  let first ← peek
  match first.kind with
  | .reference name =>
    drop
    match (← get).named.lookup name with
    | some found => return found
    | none => throw (.fault (.plain .unknownAnchor first.start))
  | _ =>
    let (name?, written?) ← properties
    let tag ← match written? with
      | some (tag, m) => resolve first.start tag m
      | none => pure none
    let item ← match content? block (← peek).kind with
      | some item =>
        if item.isScalar then drop
        pure (item.withTag tag)
      | none =>
        if name?.isNone && written?.isNone then
          let context := if block then Context.blockNode else .flowNode
          throw (.fault (.inside context first.start .noNode first.start))
        pure (Item.empty.withTag tag)
    if let some name := name? then
      modify fun r => { r with named := (name, item, first.start) :: r.named }
    return (item, first.start)

/-- A number of 32 bits. -/
def integer (index : Nat) (item : Item) (m : Mark) : Read Int := do
  let refuse (text : String) : Read Int := throw (.value (some index) text m)
  match item.integer? with
  | some n =>
    if Word.fits32 n then return n
    else if Word.fits64 n then
      refuse ("invalid value: integer `" ++ toString n ++ "`, expected i32")
    else refuse (item.mismatch "i32")
  | none => refuse (item.mismatch "i32")

/-! ## Lists -/

/-- The items of a block list after its first token, which is at `start`. -/
def blockItems (start : Mark) : Nat → Nat → Read (List Int)
  | 0, _ => return []
  | fuel + 1, index => do
    let token ← peek
    match token.kind with
    | .blockEnd =>
      drop
      return []
    | .blockEntry =>
      drop
      let next ← peek
      let (item, m) ←
        if next.kind = .blockEntry ∨ next.kind = .blockEnd then
          pure (Item.empty, token.stop)
        else node true
      let n ← integer index item m
      return n :: (← blockItems start fuel (index + 1))
    | _ => throw (.fault (.inside .blockList start .noEntry token.start))

/-- The items of a list in brackets after its first token, which is at `start`. -/
def flowItems (start : Mark) : Nat → Nat → Read (List Int)
  | 0, _ => return []
  | fuel + 1, index => do
    let token ← peek
    if token.kind ≠ .listEnd ∧ 0 < index then
      if token.kind ≠ .flowEntry then
        throw (.fault (.inside .flowList start .noListEnd token.start))
      drop
    let token ← peek
    if token.kind = .listEnd then
      drop
      return []
    let (item, m) ← if token.kind = .key then pure (Item.map, token.start) else node false
    let n ← integer index item m
    return n :: (← flowItems start fuel (index + 1))

/-- The list that the next token begins. -/
def list (fuel : Nat) : Read (List Int) := do
  let first ← peek
  drop
  match first.kind with
  | .listStart => flowItems first.start fuel 0
  | _ => blockItems first.start fuel 0

/-- The list of a document; nothing at all is an empty list. -/
def root (fuel : Nat) : Read (List Int) := do
  match ← node true with
  | (.list, _) => list fuel
  | (.scalar "" .plain _, _) => return []
  | (item, m) => throw (.value none (item.mismatch "a sequence") m)

/-! ## Documents -/

/-- Takes the directives and the mark before a document. -/
def documentStart : Nat → Directives → Read Unit
  | 0, _ => return
  | fuel + 1, ds => do
    let token ← peek
    match token.kind with
    | .directive d =>
      match ds.add d with
      | .error problem => throw (.fault (.plain problem token.start))
      | .ok ds =>
        drop
        documentStart fuel ds
    | .documentStart =>
      drop
      modify fun r => { r with handles := ds.handles ++ Directives.commonHandles }
    | _ => throw (.fault (.plain .noDocumentStart token.start))

/-- Whether a token stands before or after a document and not in it. -/
def isOutside : TokenKind → Bool
  | .directive _ | .documentStart | .documentEnd | .streamEnd => true
  | _ => false

def document (fuel : Nat) : Read (List Int) := do
  match (← peek).kind with
  | .streamEnd => return []
  | .documentStart | .directive _ =>
    documentStart fuel .none
    if isOutside (← peek).kind then return [] else root fuel
  | _ => root fuel

/-- Whether nothing but ends of documents follows. -/
def isOver : Nat → Read Bool
  | 0 => return false
  | fuel + 1 => do
    match (← peek).kind with
    | .streamEnd => return true
    | .documentEnd =>
      drop
      isOver fuel
    | _ => return false

/-- The list of the only document. -/
def only (fuel : Nat) : Read (List Int) := do
  let numbers ← document fuel
  if (← peek).kind = .documentEnd then drop
  match (isOver fuel).run (← get) with
  | .ok (true, _) => return numbers
  | _ => throw (.fault (.plain .severalDocuments .origin))

end Read

/-- The numbers of a text with one list of numbers. -/
def readIntegers (text : String) : Except Refusal (List Int) := do
  match Scanner.ofText text with
  | .error f => throw (.fault f)
  | .ok scanner =>
    let (numbers, _) ← (Read.only (text.length + 2)).run
      ⟨scanner, [], Directives.commonHandles⟩
    return numbers

end ScheduledScaling.Yaml
