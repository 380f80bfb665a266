/-
# Sixty-four bit binary fractions

A finite double is a sign and a natural number times a power of two. This module takes doubles
apart into that form and builds the double nearest to a quotient, with exact integer arithmetic
throughout. Between two doubles at the same distance the one with the even significand is taken.
-/

namespace SourceAtlas.Binary64

/-- A finite double: `significand * 2 ^ exponent`, negated if `negative`. -/
structure Parts where
  negative : Bool
  significand : Nat
  exponent : Int
deriving DecidableEq, Repr

def signBit (x : Float) : Bool :=
  x.toBits.toNat / Nat.pow 2 63 == 1

/-- Takes a double apart; the result means nothing for an infinity or a NaN. -/
def partsOf (x : Float) : Parts :=
  let bits := x.toBits.toNat
  let field : Nat := bits / Nat.pow 2 52 % Nat.pow 2 11
  let fraction : Nat := bits % Nat.pow 2 52
  if field == 0 then ⟨signBit x, fraction, -1074⟩
  else ⟨signBit x, fraction + Nat.pow 2 52, (field : Int) - 1075⟩

/-- `numerator * 2 ^ shift / denominator` as a pair of natural numbers. -/
def scaled (numerator denominator : Nat) (shift : Int) : Nat × Nat :=
  (numerator * Nat.pow 2 shift.toNat, denominator * Nat.pow 2 (-shift).toNat)

/-- Rounds a quotient to a whole number, a half going to the even neighbour. -/
def roundHalfEven (numerator denominator : Nat) : Nat :=
  let quotient := numerator / denominator
  let rest := numerator % denominator
  if 2 * rest < denominator then quotient
  else if 2 * rest == denominator then quotient + quotient % 2
  else quotient + 1

/-- The exponent `e` with `2 ^ e ≤ numerator / denominator < 2 ^ (e + 1)`, for positive numbers. -/
def floorLog2 (numerator denominator : Nat) : Int :=
  let guess : Int := (numerator.log2 : Int) - denominator.log2
  let (n, d) := scaled numerator denominator (-guess)
  if n < d then guess - 1 else guess

/-- The bits of the double nearest to a quotient of natural numbers; too large a quotient gives
the bits of infinity. -/
def nearestBits (numerator denominator : Nat) : Nat :=
  if numerator == 0 then 0
  else
    let exponent := max (floorLog2 numerator denominator - 52) (-1074)
    let (n, d) := scaled numerator denominator (-exponent)
    let significand := roundHalfEven n d
    -- A significand rounded up to 2 ^ 53 carries into the exponent field by itself.
    let bits := (exponent + 1074).toNat * Nat.pow 2 52 + significand
    if 0x7FF * Nat.pow 2 52 ≤ bits then 0x7FF * Nat.pow 2 52 else bits

/-- The double nearest to `numerator / denominator`, negated if `negative`. -/
def nearest (negative : Bool) (numerator denominator : Nat) : Float :=
  let bits := nearestBits numerator denominator
  Float.ofBits (UInt64.ofNat (if negative then bits + Nat.pow 2 63 else bits))

def notANumber : Float := Float.ofBits 0x7FF8000000000000

def infinity : Float := Float.ofBits 0x7FF0000000000000

end SourceAtlas.Binary64
