import ScheduledScaling.Json.Ignored
/-!
JSON texts as they are read. A document keeps what a reader of typed values needs to tell where
it stopped: byte offsets, members in the order written, repeated keys. A text that breaks off or
goes wrong is kept up to that point, with the fault as the last part, since a reader that refuses
an earlier part never comes to it. A value inside an object may have a fault although the object
goes on: a reader that has no use for the value passes over it.
-/
namespace ScheduledScaling

mutual

/-- A value in a text. A scalar has its own offset and the one after it; an array or object has
its own and the one that is reached by looking for its end right after its opening bracket. -/
inductive Node where
  | null (start stop : Nat)
  | bool (b : Bool) (start stop : Nat)
  | number (n : JsonNumber) (start stop : Nat)
  | string (s : String) (start stop : Nat)
  | array (start opened : Nat) (items : Nodes)
  | object (start opened : Nat) (members : NodeMembers)
  | fault (f : SyntaxFault)

/-- The items of an array, ending with the offset after it or with a fault. With an item stands
what looking for the array's end after it gives: the offset after the array, or a fault. -/
inductive Nodes where
  | done (stop : Nat)
  | fault (f : SyntaxFault)
  | cons (item : Node) (ending : Except SyntaxFault Nat) (rest : Nodes)

/-- The members of an object, ending with the offset after it or with a fault. A member has the
offset after its key, and those that are reached by looking for the object's end after its key and
after its value. What follows a value is what follows it once the value is passed over. -/
inductive NodeMembers where
  | done (stop : Nat)
  | fault (f : SyntaxFault)
  | cons (key : String) (keyStop afterKey : Nat) (value : Node) (afterValue : Nat)
      (rest : NodeMembers)

end

instance : Inhabited Node := ⟨.null 0 0⟩

def Nodes.length : Nodes → Nat
  | .cons _ _ rest => rest.length + 1
  | _ => 0

/-- A text's value, and the fault of text after it. -/
structure Document where
  root : Node
  trailing : Option SyntaxFault

namespace Document

/-- The nesting that is read into values. -/
def maxDepth : Nat := 127

/-- A part of a text, and the place after it or the fault because of which nothing follows. -/
abbrev Part (α : Type) := α × Except SyntaxFault Cursor

/-- The part of a text that is a fault. -/
def broken {α : Type} (ofFault : SyntaxFault → α) (f : SyntaxFault) : Part α :=
  (ofFault f, .error f)

/-- A scalar that begins at a place. -/
def scalar {α : Type} (start : Cursor) (node : α → Nat → Nat → Node) :
    Except SyntaxFault (α × Cursor) → Part Node
  | .ok (a, c) => (node a start.offset c.offset, .ok c)
  | .error f => broken .fault f

/-- What looking for the end of an array gives. -/
def endingOf (c : Cursor) : Except SyntaxFault Nat :=
  match c.endOfList with
  | (none, c) => .ok c.offset
  | (some p, c) => .error (c.faultHere p)

mutual

/-- The value at a place; `depth` is the nesting still allowed, and `fuel` bounds the parts of a
value and the characters of a string. -/
def readValue (fuel depth : Nat) (c : Cursor) : Part Node :=
  match fuel with
  | 0 => broken .fault (c.faultBefore .endInValue)
  | fuel + 1 =>
    let c := c.skipSpaces
    let word (rest : List Char) : Except SyntaxFault (Unit × Cursor) :=
      (readWord rest (c.skip 1)).map ((), ·)
    match c.rest with
    | [] => broken .fault (c.faultBefore .endInValue)
    | 'n' :: _ => scalar c (fun _ => .null) (word ['u', 'l', 'l'])
    | 't' :: _ => scalar c (fun _ => .bool true) (word ['r', 'u', 'e'])
    | 'f' :: _ => scalar c (fun _ => .bool false) (word ['a', 'l', 's', 'e'])
    | '-' :: _ => scalar c .number (readNumber true (c.skip 1))
    | '"' :: _ => scalar c .string (readString fuel (c.skip 1) [])
    | '[' :: _ =>
      match depth with
      | 0 => broken .fault (c.faultHere .tooDeep)
      | depth + 1 =>
        let (items, after) := readItems fuel depth true (c.skip 1)
        (.array c.offset (c.skip 1).endOfList.2.offset items, after)
    | '\x7b' :: _ =>
      match depth with
      | 0 => broken .fault (c.faultHere .tooDeep)
      | depth + 1 =>
        let (members, after) := readMembers fuel depth true (c.skip 1)
        (.object c.offset (c.skip 1).endOfObject.offset members, after)
    | d :: _ =>
      if d.isDigit then scalar c .number (readNumber false c)
      else broken .fault (c.faultHere .expectedValue)

/-- The items from a place on; `first` tells that none came before. -/
def readItems (fuel depth : Nat) (first : Bool) (c : Cursor) : Part Nodes :=
  match fuel with
  | 0 => broken .fault (c.faultBefore .endInList)
  | fuel + 1 =>
    let c := c.skipSpaces
    let items (c : Cursor) : Part Nodes :=
      match readValue fuel depth c with
      | (item, .error f) => (.cons item (.error f) (.fault f), .error f)
      | (item, .ok c) =>
        let (rest, after) := readItems fuel depth false c
        (.cons item (endingOf c) rest, after)
    match c.rest with
    | [] => broken .fault (c.faultBefore .endInList)
    | ']' :: _ => (.done (c.offset + 1), .ok (c.skip 1))
    | d :: _ =>
      if first then items c
      else if d = ',' then
        let c := (c.skip 1).skipSpaces
        match c.rest with
        | [] => broken .fault (c.faultBefore .endInValue)
        | ']' :: _ => broken .fault (c.faultHere .trailingComma)
        | _ => items c
      else broken .fault (c.faultHere .expectedListEnd)

/-- The members from a place on; `first` tells that none came before. -/
def readMembers (fuel depth : Nat) (first : Bool) (c : Cursor) : Part NodeMembers :=
  match fuel with
  | 0 => broken .fault (c.faultBefore .endInObject)
  | fuel + 1 =>
    let c := c.skipSpaces
    let member (c : Cursor) : Part NodeMembers :=
      match readString fuel (c.skip 1) [] with
      | .error f => broken .fault f
      | .ok (key, c) =>
        let cons := NodeMembers.cons key c.offset c.endOfObject.offset
        let c := c.skipSpaces
        let stopped (f : SyntaxFault) : Part NodeMembers :=
          (cons (.fault f) f.offset (.fault f), .error f)
        match c.rest with
        | [] => stopped (c.faultBefore .endInObject)
        | ':' :: _ =>
          let (value, _) := readValue fuel depth (c.skip 1)
          match passValue fuel (c.skip 1) with
          | .error f => (cons value f.offset (.fault f), .error f)
          | .ok c =>
            let (rest, after) := readMembers fuel depth false c
            (cons value c.endOfObject.offset rest, after)
        | _ => stopped (c.faultHere .expectedColon)
    match c.rest with
    | [] => broken .fault (c.faultBefore .endInObject)
    | '\x7d' :: _ => (.done (c.offset + 1), .ok (c.skip 1))
    | d :: _ =>
      if first then
        if d = '"' then member c else broken .fault (c.faultHere .keyNotString)
      else if d = ',' then
        let c := (c.skip 1).skipSpaces
        match c.rest with
        | [] => broken .fault (c.faultBefore .endInValue)
        | '"' :: _ => member c
        | '\x7d' :: _ => broken .fault (c.faultHere .trailingComma)
        | _ => broken .fault (c.faultHere .keyNotString)
      else broken .fault (c.faultHere .expectedObjectEnd)

end

/-- The fault of text after a value, blanks aside. -/
def trailing? (c : Cursor) : Option SyntaxFault :=
  let c := c.skipSpaces
  if c.rest.isEmpty then none else some (c.faultHere .trailingText)

/-- Reads a text. A part takes two steps at most and a character at least. -/
def read (text : String) : Document :=
  let chars := text.toList
  match readValue (2 * chars.length + 2) maxDepth ⟨0, chars⟩ with
  | (root, .ok c) => ⟨root, trailing? c⟩
  | (root, .error _) => ⟨root, none⟩

end Document

/-! ## Documents and values -/

mutual

/-- A value as the node of a document without offsets. -/
def Json.toNode : Json → Node
  | .null => .null 0 0
  | .bool b => .bool b 0 0
  | .number n => .number n 0 0
  | .string s => .string s 0 0
  | .array items => .array 0 0 (Json.toNodes items)
  | .object members => .object 0 0 (Json.toNodeMembers members)

def Json.toNodes : List Json → Nodes
  | [] => .done 0
  | item :: rest => .cons item.toNode (.ok 0) (Json.toNodes rest)

def Json.toNodeMembers : List (String × Json) → NodeMembers
  | [] => .done 0
  | (key, value) :: rest => .cons key 0 0 value.toNode 0 (Json.toNodeMembers rest)

end

mutual

/-- The value of a node, or the first fault in it. -/
def Node.toJson : Node → Except SyntaxFault Json
  | .fault f => .error f
  | .null .. => .ok .null
  | .bool b _ _ => .ok (.bool b)
  | .number n _ _ => .ok (.number n)
  | .string s _ _ => .ok (.string s)
  | .array _ _ items => do return .array (← items.toJsons)
  | .object _ _ members => do return .ofMembers (← members.toJsons)

def Nodes.toJsons : Nodes → Except SyntaxFault (List Json)
  | .done _ => .ok []
  | .fault f => .error f
  | .cons item _ rest => do
    let item ← item.toJson
    return item :: (← rest.toJsons)

def NodeMembers.toJsons : NodeMembers → Except SyntaxFault (List (String × Json))
  | .done _ => .ok []
  | .fault f => .error f
  | .cons key _ _ value _ rest => do
    let value ← value.toJson
    return (key, value) :: (← rest.toJsons)

end

/-- The value of a text, or the first fault in it. -/
def Json.parse (text : String) : Except SyntaxFault Json := do
  let document := Document.read text
  let value ← document.root.toJson
  match document.trailing with
  | some f => throw f
  | none => return value

end ScheduledScaling
