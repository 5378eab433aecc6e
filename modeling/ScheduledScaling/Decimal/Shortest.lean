import ScheduledScaling.Decimal.Double
/-!
The text of doubles. `shortest` gives the fewest digits that round back to the same value, and of
those the nearest to it; `compactText` writes them, with an exponent where that is shorter.
-/
namespace ScheduledScaling.Decimal

namespace Double

/-- The digits of the shortest decimal that rounds to a double, and the power of ten they are
multiplied by. -/
def shortest (d : Double) : Nat × Int :=
  if d.mantissa = 0 then (0, 0)
  else
    let (unit, den) := scaled 1 2 (d.exponent - 2)
    let value := 4 * d.mantissa * unit
    let high := (4 * d.mantissa + 2) * unit
    let gap := if d.mantissa = mantissaBound / 2 ∧ minExponent < d.exponent then 1 else 2
    let low := (4 * d.mantissa - gap) * unit
    let even := d.mantissa % 2 = 0
    let point : Int := (toString (value * Nat.pow 10 400 / den)).length - 400
    let onGrid (n : Nat) : Option (Nat × Int) :=
      let g := point - n
      let (up, down) := scaled 1 10 g
      let below := value * down / (den * up)
      let rounds (c : Nat) : Bool :=
        let scaled := c * up * den
        (low * down < scaled && scaled < high * down) ||
          (even && (scaled = low * down || scaled = high * down))
      let above := below + 1
      let nearer := roundDiv (value * down) (den * up)
      if rounds below && rounds above then some (nearer, g)
      else if rounds below then some (below, g)
      else if rounds above then some (above, g)
      else none
    let (digits, g) := ((List.range' 1 17).findSome? onGrid).getD (0, 0)
    strip digits g 20
where
  strip (digits : Nat) (g : Int) : Nat → Nat × Int
    | 0 => (digits, g)
    | n + 1 => if digits % 10 = 0 ∧ digits ≠ 0 then strip (digits / 10) (g + 1) n else (digits, g)

end Double

def zeros (n : Nat) : String := String.ofList (List.replicate n '0')

/-- All digits of `digits * 10 ^ exponent`, without an exponent; a whole number ends in `.0`. -/
def plainText (digits : Nat) (exponent : Int) : String :=
  let text := toString digits
  if 0 ≤ exponent then text ++ zeros exponent.toNat ++ ".0"
  else
    let places := (-exponent).toNat
    let text := zeros (places + 1 - text.length) ++ text
    String.ofList (text.toList.take (text.length - places)) ++ "." ++
      String.ofList (text.toList.drop (text.length - places))

/-- As `plainText` while the point stands from five places before the digits to place 16, and
otherwise one digit before the point and an exponent with its sign. -/
def compactText (digits : Nat) (exponent : Int) : String :=
  let text := (toString digits).toList
  let point : Int := text.length + exponent
  if digits = 0 ∨ -5 < point ∧ point ≤ 16 then plainText digits exponent
  else
    let fraction := text.drop 1
    String.ofList (text.take 1) ++
      (if fraction.isEmpty then "" else "." ++ String.ofList fraction) ++
      (if 0 < point then "e+" else "e-") ++ toString (point - 1).natAbs

end ScheduledScaling.Decimal
