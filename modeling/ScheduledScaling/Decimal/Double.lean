/-!
Decimal numbers in 64-bit floating point. `ofQuotient?` rounds a quotient to the nearest value
`mantissa * 2 ^ exponent`, ties to even, and `nearest?` does so for a decimal. `shift?` multiplies
by a power of ten in steps, each of which is rounded by itself, so its result may be next to the
nearest value.
-/
namespace ScheduledScaling.Decimal

/-- A finite value that is not negative. -/
structure Double where
  /-- Below 2^53. -/
  mantissa : Nat
  /-- At least -1074. -/
  exponent : Int
  deriving DecidableEq, Repr, Inhabited

namespace Double

def zero : Double := ⟨0, 0⟩

/-- Mantissas are below this; the normal ones are at least half of it. -/
def mantissaBound : Nat := 9007199254740992

def minExponent : Int := -1074

def maxExponent : Int := 971

end Double

/-- `n * base ^ e` as a quotient of two natural numbers. -/
def scaled (n base : Nat) (e : Int) : Nat × Nat :=
  if 0 ≤ e then (n * Nat.pow base e.toNat, 1) else (n, Nat.pow base (-e).toNat)

/-- The quotient of two numbers, rounded to nearest, ties to even. -/
def roundDiv (num den : Nat) : Nat :=
  let q := num / den
  let r := num % den
  if 2 * r > den ∨ 2 * r = den ∧ q % 2 = 1 then q + 1 else q

/-! ## Rounding -/

namespace Double

/-- The double nearest to a quotient; none beyond the largest. -/
def ofQuotient? (num den : Nat) : Option Double :=
  if num = 0 then some zero
  else
    let guess := max minExponent ((num.log2 : Int) - den.log2 - 53)
    let quotient (q : Int) : Nat × Nat :=
      if 0 ≤ q then (num, den * Nat.pow 2 q.toNat) else (num * Nat.pow 2 (-q).toNat, den)
    let tooBig := (quotient guess).1 / (quotient guess).2 ≥ mantissaBound
    let q := if tooBig then guess + 1 else guess
    let m := roundDiv (quotient q).1 (quotient q).2
    let (m, q) := if m = mantissaBound then (mantissaBound / 2, q + 1) else (m, q)
    if maxExponent < q then none else some ⟨m, q⟩

/-- The double nearest to a quotient times a power of two. -/
def ofScaled? (num den : Nat) (e : Int) : Option Double :=
  let (up, down) := scaled num 2 e
  ofQuotient? up (den * down)

def times? (x y : Double) : Option Double :=
  ofScaled? (x.mantissa * y.mantissa) 1 (x.exponent + y.exponent)

/-- A quotient of doubles; the second is not zero. -/
def dividedBy? (x y : Double) : Option Double :=
  ofScaled? x.mantissa y.mantissa (x.exponent - y.exponent)

end Double

/-- The double nearest to `digits * 10 ^ exponent`; none beyond the largest. -/
def nearest? (digits : Nat) (exponent : Int) : Option Double :=
  let size : Int := exponent + (toString digits).length
  if digits = 0 ∨ size < -330 then some Double.zero
  else if 310 < size then none
  else
    let (num, den) := scaled digits 10 exponent
    Double.ofQuotient? num den

/-! ## Powers of ten -/

namespace Double

/-- The highest power of ten that is no more than the largest double. -/
def maxPower : Nat := 308

/-- The double nearest to a power of ten, up to the highest. -/
def powerOfTen (n : Nat) : Double := (nearest? 1 n).getD zero

/-- A double times a power of ten, in steps of at most the highest power; none beyond the largest.
`steps` bounds the steps, after which only zero is left. -/
def shiftIn? : Nat → Double → Int → Option Double
  | 0, _, _ => some zero
  | steps + 1, x, exponent =>
    if x.mantissa = 0 then some zero
    else if (maxPower : Int) < exponent then none
    else if 0 ≤ exponent then x.times? (powerOfTen exponent.toNat)
    else if -(maxPower : Int) ≤ exponent then x.dividedBy? (powerOfTen (-exponent).toNat)
    else do
      let x ← x.dividedBy? (powerOfTen maxPower)
      shiftIn? steps x (exponent + maxPower)

/-- A double times a power of ten. Four steps downwards leave nothing of any double. -/
def shift? (x : Double) (exponent : Int) : Option Double := shiftIn? 5 x exponent

end Double

end ScheduledScaling.Decimal
