import ScheduledScaling.Yaml.Scalar
/-!
Tags of YAML values. A tag is written as a handle and a suffix: the handle stands for the
beginning of an address and the suffix is the rest. An address holds octets, here each the
character of its number, and a zero octet ends it.
-/
namespace ScheduledScaling.Yaml

/-! ## Addresses -/

namespace Address

/-- Whether a character may stand in an address; in a wide one also a comma or a square bracket. -/
def isChar (wide : Bool) (c : Char) : Bool :=
  isNameChar c || [';', '/', '?', ':', '@', '&', '=', '+', '$', '.', '%', '!', '~', '*', '\'', '(',
    ')'].contains c || (wide && [',', '[', ']'].contains c)

/-- The octet that a percent sign and two digits stand for. -/
def octet? (c : Cursor) : Option Nat :=
  match c.rest with
  | '%' :: high :: low :: _ => do return 16 * (← hexValue? high) + (← hexValue? low)
  | _ => none

/-- How many octets follow the first one of a character. -/
def trailing? (octet : Nat) : Option Nat :=
  if octet < 0x80 then some 0
  else if 0xC0 ≤ octet ∧ octet < 0xE0 then some 1
  else if 0xE0 ≤ octet ∧ octet < 0xF0 then some 2
  else if 0xF0 ≤ octet ∧ octet < 0xF8 then some 3
  else none

/-- The further octets of a character. -/
def readTrailing (context : Context) (start : Mark) :
    Nat → Cursor → Except Fault (List Char × Cursor)
  | 0, c => .ok ([], c)
  | count + 1, c =>
    match octet? c with
    | none => .error (.inside context start .noOctet c.mark)
    | some octet => do
      if octet < 0x80 ∨ 0xC0 ≤ octet then
        throw (.inside context start .trailingOctet c.mark)
      let (octets, c) ← readTrailing context start count (c.skip 3)
      return (Char.ofNat octet :: octets, c)

/-- The octets of one character. -/
def readOctets (context : Context) (start : Mark) (c : Cursor) :
    Except Fault (List Char × Cursor) :=
  match octet? c with
  | none => .error (.inside context start .noOctet c.mark)
  | some octet =>
    match trailing? octet with
    | none => .error (.inside context start .leadingOctet c.mark)
    | some count => do
      let (octets, c) ← readTrailing context start count (c.skip 3)
      return (Char.ofNat octet :: octets, c)

def readChars (wide : Bool) (context : Context) (start : Mark) :
    Nat → Cursor → Except Fault (List Char × Cursor)
  | 0, c => .ok ([], c)
  | fuel + 1, c =>
    match c.rest with
    | [] => .ok ([], c)
    | d :: _ =>
      if !isChar wide d then .ok ([], c)
      else do
        let (octets, c) ←
          if d = '%' then readOctets context start c else pure ([d], c.next)
        let (more, c) ← readChars wide context start fuel c
        return (octets ++ more, c)

/-- An address up to its zero octet, if it has one. -/
def untilZero (octets : List Char) : List Char := octets.takeWhile (· ≠ '\x00')

/-- An address, which is not empty. -/
def read (wide : Bool) (context : Context) (start : Mark) (c : Cursor) :
    Except Fault (List Char × Cursor) := do
  let (octets, after) ← readChars wide context start c.rest.length c
  if after.mark = c.mark then throw (.inside context start .noTagAddress c.mark)
  return (untilZero octets, after)

end Address

/-! ## Written tags -/

/-- A tag as it is written. Without a handle its suffix is the whole address. -/
structure WrittenTag where
  handle : List Char
  suffix : List Char
  deriving DecidableEq, Repr

namespace WrittenTag

/-- The tag at a place, which begins with an exclamation mark. -/
def read (flow : Bool) (c : Cursor) : Except Fault (WrittenTag × Cursor) := do
  let start := c.mark
  let name := (c.rest.drop 1).takeWhile isNameChar
  let named := c.skip (1 + name.length)
  let (tag, after) ←
    if (c.rest.drop 1).head? = some '<' then do
      let (address, after) ← Address.read true .tagAddress start (c.skip 2)
      if after.rest.head? ≠ some '>' then throw (.inside .tag start .noTagEnd after.mark)
      pure ((⟨[], address⟩ : WrittenTag), after.next)
    else if named.rest.head? = some '!' then do
      let (address, after) ← Address.read false .tagAddress start named.next
      pure (⟨'!' :: name ++ ['!'], address⟩, after)
    else do
      let (more, after) ← Address.readChars false .tagAddress start named.rest.length named
      let suffix := Address.untilZero (name ++ more)
      pure (if suffix.isEmpty then ⟨[], ['!']⟩ else ⟨['!'], suffix⟩, after)
  let ends := after.rest.head?.all isGap || (flow && after.rest.head? == some ',')
  if !ends then throw (.inside .tag start .noBlankOrBreak after.mark)
  return (tag, after)

end WrittenTag

/-! ## What tags mean -/

/-- What a tag says of a scalar. -/
inductive Tag where
  | bool
  | integer
  | float
  | nothing
  /-- A tag of the application, which says nothing. -/
  | custom
  | other
  deriving DecidableEq, Repr

namespace Tag

/-- How the addresses of the tags begin that all texts share. -/
def sharedAddress : List Char := "tag:yaml.org,2002:".toList

def ofAddress (address : List Char) : Tag :=
  if address = sharedAddress ++ ['b', 'o', 'o', 'l'] then bool
  else if address = sharedAddress ++ ['i', 'n', 't'] then integer
  else if address = sharedAddress ++ ['f', 'l', 'o', 'a', 't'] then float
  else if address = sharedAddress ++ ['n', 'u', 'l', 'l'] then nothing
  else if address.head? = some '!' then custom
  else other

end Tag

end ScheduledScaling.Yaml
