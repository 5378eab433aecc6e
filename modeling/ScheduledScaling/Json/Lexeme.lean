import ScheduledScaling.Json.Syntax
import ScheduledScaling.Json.Value
/-!
Words, numbers and strings in JSON texts. Each is either read or passed over. A value that is
passed over has to have the form of one, but is not looked into: its number may be too large and
its string may hold half a character.
-/
namespace ScheduledScaling.Document

/-- The rest of a literal such as `null`, compared character by character. -/
def readWord : List Char → Cursor → Except SyntaxFault Cursor
  | [], c => .ok c
  | expected :: word, c =>
    match c.rest with
    | [] => .error (c.faultBefore .endInValue)
    | d :: _ =>
      if d = expected then readWord word (c.skip 1)
      else .error (c.faultHere .expectedIdent)

/-! ## Numbers -/

/-- The digits at a place, and the place after them. -/
def takeDigits (c : Cursor) : List Char × Cursor :=
  let digits := c.rest.takeWhile Char.isDigit
  (digits, c.skip digits.length)

/-- Whether a number can begin at a place: with a digit, and not with a zero before others. -/
def startOfNumber (c : Cursor) : Except SyntaxFault Unit :=
  match c.rest with
  | [] => .error (c.faultBefore .invalidNumber)
  | d :: more =>
    if !d.isDigit then .error (c.faultHere .invalidNumber)
    else if d = '0' ∧ more.head?.any Char.isDigit then
      .error ((c.skip 1).faultHere .invalidNumber)
    else .ok ()

/-- At the end of a text a number that is read breaks off. -/
def orEnd (c : Cursor) : SyntaxFault :=
  c.faultHere (if c.rest.isEmpty then .endInValue else .invalidNumber)

/-- The digits after a point, if there is one. -/
def readFraction (c : Cursor) : Except SyntaxFault (Option (List Char) × Cursor) :=
  match c.rest with
  | '.' :: _ =>
    let (digits, c) := takeDigits (c.skip 1)
    if digits.isEmpty then .error (orEnd c) else .ok (some digits, c)
  | _ => .ok (none, c)

/-- The sign of an exponent, if there is an exponent, and the place of its digits. -/
def exponentSign? (c : Cursor) : Option (Bool × Cursor) :=
  match c.rest with
  | 'e' :: more | 'E' :: more =>
    some (more.head? = some '-',
      c.skip (if more.head? = some '+' ∨ more.head? = some '-' then 2 else 1))
  | _ => none

/-- How many digits take a number beyond a word of 32 bits with a sign, if they do. -/
def excess? (n : Int) : List Char → Option Nat
  | [] => none
  | d :: rest =>
    let next := 10 * n + Text.digitValue d
    if Word.high32 < next then some 1 else (excess? next rest).map (· + 1)

/-- Adds digits to a significand while it stays a word of 64 bits; the digits that are left. -/
def gather (significand : Nat) : List Char → Nat × List Char
  | [] => (significand, [])
  | d :: rest =>
    let next := 10 * significand + Text.digitValue d
    if next < Word.bound64 then gather next rest else (significand, d :: rest)

/-- A significand times a power of ten. -/
def scaledNumber (negative : Bool) (significand : Nat) (exponent : Int) (c : Cursor) :
    Except SyntaxFault (JsonNumber × Cursor) :=
  match (Decimal.nearest? significand 0).bind fun x => x.shift? exponent with
  | some magnitude => .ok (.double negative magnitude, c)
  | none => .error (c.faultBefore .numberOutOfRange)

/-- A number with an exponent, from the digits of the exponent on. An exponent too long for a word
makes zero of any number, or is refused where its last digit is read that still counts. -/
def readScaled (negative : Bool) (significand : Nat) (places : Int) (down : Bool) (c : Cursor) :
    Except SyntaxFault (JsonNumber × Cursor) :=
  let (digits, after) := takeDigits c
  if digits.isEmpty then .error (orEnd c)
  else
    match excess? 0 digits with
    | none =>
      let exponent : Int := Text.valueOfDigits digits
      scaledNumber negative significand (places + if down then -exponent else exponent) after
    | some n =>
      if significand = 0 ∨ down then .ok (.double negative .zero, after)
      else .error ((c.skip n).faultBefore .numberOutOfRange)

/-- A number, from its digits on. Digits beyond a significand of 64 bits do not count. -/
def readNumber (negative : Bool) (c : Cursor) : Except SyntaxFault (JsonNumber × Cursor) := do
  if c.rest.isEmpty then throw (c.faultBefore .endInValue)
  startOfNumber c
  let (whole, c) := takeDigits c
  let (significand, dropped) := gather 0 whole
  let (fraction, c) ← readFraction c
  let digits := fraction.getD []
  let (significand, unread) := gather significand digits
  let places : Int := dropped.length + unread.length - digits.length
  match exponentSign? c with
  | some (down, c) => readScaled negative significand places down c
  | none =>
    if fraction.isNone ∧ dropped.isEmpty then return (.ofWord negative significand, c)
    else scaledNumber negative significand places c

/-- Passes over a number, from its digits on. -/
def passNumber (c : Cursor) : Except SyntaxFault Cursor := do
  startOfNumber c
  let (_, c) := takeDigits c
  let c ← match c.rest with
    | '.' :: _ =>
      let (digits, c) := takeDigits (c.skip 1)
      if digits.isEmpty then throw (c.faultHere .invalidNumber) else pure c
    | _ => pure c
  match exponentSign? c with
  | some (_, c) =>
    let (digits, after) := takeDigits c
    if digits.isEmpty then throw (c.faultHere .invalidNumber) else return after
  | none => return c

/-! ## Strings -/

def hexValue? (c : Char) : Option Nat :=
  if c.isDigit then some (c.toNat - 48)
  else if 'a' ≤ c ∧ c ≤ 'f' then some (c.toNat - 87)
  else if 'A' ≤ c ∧ c ≤ 'F' then some (c.toNat - 55)
  else none

/-- The four digits of an escape by number. -/
def readHex (c : Cursor) : Except SyntaxFault (Nat × Cursor) :=
  let bytes := Cursor.byteCount (c.rest.take 4)
  if bytes < 4 then .error ⟨.endInString, c.offset + bytes⟩
  else
    match (c.rest.take 4).mapM hexValue? with
    | some [a, b, d, e] => .ok (((a * 16 + b) * 16 + d) * 16 + e, c.skip 4)
    | _ => .error ⟨.invalidEscape, c.offset + 4⟩

/-- The second half of a character that is written as two escapes. -/
def readLowHalf (high : Nat) (c : Cursor) : Except SyntaxFault (Char × Cursor) := do
  let expect (x : Char) (c : Cursor) : Except SyntaxFault Cursor :=
    match c.rest with
    | [] => .error (c.faultBefore .endInString)
    | d :: _ => if d = x then .ok (c.skip 1) else .error (c.faultHere .cutEscape)
  let c ← expect 'u' (← expect '\\' c)
  let (low, c) ← readHex c
  if low < 0xDC00 || 0xDFFF < low then throw (c.faultBefore .loneSurrogate)
  return (Char.ofNat ((high - 0xD800) * 1024 + (low - 0xDC00) + 0x10000), c)

/-- The characters that are escaped by one letter. -/
def escapes : List (Char × Char) :=
  [('"', '"'), ('\\', '\\'), ('/', '/'), ('b', '\x08'), ('f', '\x0c'), ('n', '\n'), ('r', '\r'),
    ('t', '\t')]

/-- The character of an escape, from after its backslash. -/
def readEscape (c : Cursor) : Except SyntaxFault (Char × Cursor) := do
  match c.rest with
  | [] => throw (c.faultBefore .endInString)
  | 'u' :: _ =>
    let (n, c) ← readHex (c.skip 1)
    if 0xDC00 ≤ n && n ≤ 0xDFFF then throw (c.faultBefore .loneSurrogate)
    if n < 0xD800 || 0xDBFF < n then return (Char.ofNat n, c)
    readLowHalf n c
  | d :: _ =>
    match escapes.lookup d with
    | some e => return (e, c.skip 1)
    | none => throw (c.faultHere .invalidEscape)

/-- The rest of a string after its opening quote; `fuel` bounds its length. -/
def readString (fuel : Nat) (c : Cursor) (read : List Char) :
    Except SyntaxFault (String × Cursor) :=
  match fuel, c.rest with
  | 0, _ => .error (c.faultBefore .endInString)
  | _, [] => .error (c.faultBefore .endInString)
  | _ + 1, '"' :: _ => .ok (String.ofList read.reverse, c.skip 1)
  | fuel + 1, '\\' :: _ =>
    match readEscape (c.skip 1) with
    | .error f => .error f
    | .ok (d, c) => readString fuel c (d :: read)
  | fuel + 1, d :: _ =>
    if d.toNat < 32 then .error (c.faultHere .controlInString)
    else readString fuel (c.skip 1) (d :: read)

/-- Passes over an escape, from after its backslash. -/
def passEscape (c : Cursor) : Except SyntaxFault Cursor := do
  match c.rest with
  | [] => throw (c.faultBefore .endInString)
  | 'u' :: _ => return (← readHex (c.skip 1)).2
  | d :: _ =>
    if (escapes.lookup d).isSome then return c.skip 1 else throw (c.faultHere .invalidEscape)

/-- Passes over the rest of a string after its opening quote; `fuel` bounds its length. -/
def passString (fuel : Nat) (c : Cursor) : Except SyntaxFault Cursor :=
  match fuel, c.rest with
  | 0, _ => .error (c.faultBefore .endInString)
  | _, [] => .error (c.faultBefore .endInString)
  | _ + 1, '"' :: _ => .ok (c.skip 1)
  | fuel + 1, '\\' :: _ =>
    match passEscape (c.skip 1) with
    | .error f => .error f
    | .ok c => passString fuel c
  | fuel + 1, d :: _ =>
    if d.toNat < 32 then .error (c.faultBefore .controlInString)
    else passString fuel (c.skip 1)

end ScheduledScaling.Document
