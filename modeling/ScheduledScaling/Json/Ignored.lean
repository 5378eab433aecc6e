import ScheduledScaling.Json.Lexeme
/-!
Values of JSON texts that are passed over. The member of a record that has no such field is not
read, however deep it is; `passValue` finds its end, or the first fault of its form. After a comma
an object has to go on with a key and a list with a value.
-/
namespace ScheduledScaling.Document

mutual

/-- Passes over the value at a place; `fuel` bounds the parts of a value and the characters of a
string. -/
def passValue (fuel : Nat) (c : Cursor) : Except SyntaxFault Cursor :=
  match fuel with
  | 0 => .error (c.faultBefore .endInValue)
  | fuel + 1 =>
    let c := c.skipSpaces
    match c.rest with
    | [] => .error (c.faultBefore .endInValue)
    | 'n' :: _ => readWord ['u', 'l', 'l'] (c.skip 1)
    | 't' :: _ => readWord ['r', 'u', 'e'] (c.skip 1)
    | 'f' :: _ => readWord ['a', 'l', 's', 'e'] (c.skip 1)
    | '-' :: _ => passNumber (c.skip 1)
    | '"' :: _ => passString fuel (c.skip 1)
    | '[' :: _ => passItems fuel true (c.skip 1)
    | '\x7b' :: _ => passMembers fuel true (c.skip 1)
    | d :: _ => if d.isDigit then passNumber c else .error (c.faultHere .expectedValue)

/-- Passes over the items of a list and its end; `first` tells that none came before. -/
def passItems (fuel : Nat) (first : Bool) (c : Cursor) : Except SyntaxFault Cursor :=
  match fuel with
  | 0 => .error (c.faultBefore .endInList)
  | fuel + 1 =>
    let c := c.skipSpaces
    let item (c : Cursor) : Except SyntaxFault Cursor := do
      passItems fuel false (← passValue fuel c)
    match c.rest with
    | [] => .error (c.faultBefore .endInList)
    | ']' :: _ => .ok (c.skip 1)
    | d :: _ =>
      if first then item c
      else if d = ',' then item (c.skip 1)
      else .error (c.faultHere .expectedListEnd)

/-- Passes over the members of an object and its end; `first` tells that none came before. -/
def passMembers (fuel : Nat) (first : Bool) (c : Cursor) : Except SyntaxFault Cursor :=
  match fuel with
  | 0 => .error (c.faultBefore .endInObject)
  | fuel + 1 =>
    let c := c.skipSpaces
    let member (c : Cursor) : Except SyntaxFault Cursor := do
      let c := c.skipSpaces
      match c.rest with
      | [] => throw (c.faultBefore .endInObject)
      | '"' :: _ =>
        let c := (← passString fuel (c.skip 1)).skipSpaces
        match c.rest with
        | [] => throw (c.faultBefore .endInObject)
        | ':' :: _ => passMembers fuel false (← passValue fuel (c.skip 1))
        | _ => throw (c.faultHere .expectedColon)
      | _ => throw (c.faultHere .keyNotString)
    match c.rest with
    | [] => .error (c.faultBefore .endInObject)
    | '\x7d' :: _ => .ok (c.skip 1)
    | d :: _ =>
      if first then member c
      else if d = ',' then member (c.skip 1)
      else .error (c.faultHere .expectedObjectEnd)

end

end ScheduledScaling.Document
