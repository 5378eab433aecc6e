/-!
Texts in base64, in which four digits stand for three bytes. Texts are padded to whole groups, and
the bits of the last digit that belong to no byte are zero, so each sequence of bytes has one text.
`decode` gives the bytes, or the first reason why there are none.
-/
namespace ScheduledScaling.Text.Base64

/-- What is wrong with a text, with byte values and offsets. -/
inductive Problem where
  | symbol (offset : Nat) (byte : UInt8)
  | lastSymbol (offset : Nat) (byte : UInt8)
  | length (n : Nat)
  | padding
  deriving DecidableEq, Repr

def Problem.message : Problem → String
  | symbol offset byte =>
    "Invalid symbol " ++ toString byte.toNat ++ ", offset " ++ toString offset ++ "."
  | lastSymbol offset byte =>
    "Invalid last symbol " ++ toString byte.toNat ++ ", offset " ++ toString offset ++ "."
  | length n => "Invalid input length: " ++ toString n
  | padding => "Invalid padding"

def pad : UInt8 := 61

/-- The value of a digit. -/
def digit? (b : UInt8) : Option Nat :=
  if 65 ≤ b ∧ b ≤ 90 then some (b.toNat - 65)
  else if 97 ≤ b ∧ b ≤ 122 then some (b.toNat - 71)
  else if 48 ≤ b ∧ b ≤ 57 then some (b.toNat + 4)
  else if b = 43 then some 62
  else if b = 47 then some 63
  else none

/-- The values of some digits, the first of which is at an offset. -/
def digits (offset : Nat) : List UInt8 → Except Problem (List Nat)
  | [] => .ok []
  | b :: rest =>
    match digit? b with
    | some d => (digits (offset + 1) rest).map (d :: ·)
    | none => .error (.symbol offset b)

/-- The bytes of up to four digits; bits that fill no byte are dropped. -/
def bytesOf : List Nat → List UInt8
  | [a, b, c, d] =>
    [UInt8.ofNat (a * 4 + b / 16), UInt8.ofNat (b % 16 * 16 + c / 4), UInt8.ofNat (c % 4 * 64 + d)]
  | [a, b, c] => [UInt8.ofNat (a * 4 + b / 16), UInt8.ofNat (b % 16 * 16 + c / 4)]
  | [a, b] => [UInt8.ofNat (a * 4 + b / 16)]
  | _ => []

/-- Whether bits of the last of some digits fill no byte and are not zero. -/
def hasSpareBits : List Nat → Bool
  | [_, b] => b % 16 ≠ 0
  | [_, _, c] => c % 4 ≠ 0
  | _ => false

/-- The bytes of the last group, which may be padded. -/
def decodeLast (offset : Nat) (group : List UInt8) : Except Problem (List UInt8) := do
  let plain := group.takeWhile (· ≠ pad)
  let padding := group.drop plain.length
  let values ← digits offset plain
  if padding ≠ [] ∧ (plain.length < 2 ∨ padding.any (· ≠ pad)) then
    throw (.symbol (offset + plain.length) pad)
  if plain.length = 1 then throw (.length (offset + 1))
  if group.length % 4 ≠ 0 then throw .padding
  if hasSpareBits values then
    throw (.lastSymbol (offset + plain.length - 1) (plain.getLastD 0))
  return bytesOf values

/-- The bytes of a text from an offset on. Only the last group may be padded. -/
def decodeFrom (offset : Nat) : List UInt8 → Except Problem (List UInt8)
  | a :: b :: c :: d :: e :: rest => do
    let values ← digits offset [a, b, c, d]
    return bytesOf values ++ (← decodeFrom (offset + 4) (e :: rest))
  | group => decodeLast offset group

/-- The bytes of a text. A single byte after whole groups is looked at first, as it may be a line
break that was left over. -/
def decode (text : List UInt8) : Except Problem (List UInt8) :=
  match text.getLast? with
  | some last =>
    if text.length % 4 = 1 ∧ last ≠ pad ∧ (digit? last).isNone then
      .error (.symbol (text.length - 1) last)
    else decodeFrom 0 text
  | none => .ok []

end ScheduledScaling.Text.Base64
