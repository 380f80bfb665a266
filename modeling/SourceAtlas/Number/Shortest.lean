/-
# The shortest decimal that reads back

Every double is the nearest one to a whole interval of real numbers. Its shortest decimal has the
fewest digits among the decimals in that interval and, among those, stands nearest to the double.
The search tries one digit, two digits and so on; on each grid only the two neighbours of the value
can be nearest, so two exact comparisons decide.
-/

import SourceAtlas.Number.Binary64

namespace SourceAtlas.Binary64

/-- The decimal `digits * 10 ^ exponent`. -/
structure Decimal where
  digits : Nat
  exponent : Int
deriving DecidableEq, Repr

def digitCount (n : Nat) : Nat :=
  (Nat.toDigits 10 n).length

/-- An interval of reals around a value, over one common denominator. -/
structure RoundingInterval where
  low : Nat
  value : Nat
  high : Nat
  denominator : Nat
  /-- Whether the two ends round to the value too. -/
  closed : Bool
deriving Repr

/-- The reals that round to a positive finite double. The neighbour below a power of two is half as
far away as the one above. -/
def roundingInterval (p : Parts) : RoundingInterval :=
  let unit := Nat.pow 2 p.exponent.toNat
  let value := 4 * p.significand * unit
  let below := if p.significand == Nat.pow 2 52 && p.exponent > -1074 then unit else 2 * unit
  { low := value - below, value, high := value + 2 * unit
    denominator := 4 * Nat.pow 2 (-p.exponent).toNat, closed := p.significand % 2 == 0 }

/-- The exponent `e` with `10 ^ (e - 1) ≤ value < 10 ^ e`. -/
def RoundingInterval.decimalExponent (i : RoundingInterval) : Int :=
  let guess : Int := (digitCount i.value : Int) - digitCount i.denominator
  if i.value * Nat.pow 10 (-guess).toNat < i.denominator * Nat.pow 10 guess.toNat then guess
  else guess + 1

/-- The best multiple of `10 ^ exponent` inside the interval, if there is one. -/
def RoundingInterval.onGrid (i : RoundingInterval) (exponent : Int) : Option Nat :=
  let up := Nat.pow 10 (-exponent).toNat
  let cell := i.denominator * Nat.pow 10 exponent.toNat
  let value := i.value * up
  let below := value / cell
  let rest := value % cell
  let lowOk := if i.closed then i.low * up ≤ below * cell else i.low * up < below * cell
  let highOk :=
    if i.closed then (below + 1) * cell ≤ i.high * up else (below + 1) * cell < i.high * up
  match decide lowOk, decide highOk with
  | true, true =>
    if 2 * rest < cell then some below
    else if 2 * rest == cell then some (below + below % 2)
    else some (below + 1)
  | true, false => some below
  | false, true => if rest == 0 then some below else some (below + 1)
  | false, false => if rest == 0 then some below else none

/-- Tries the grids from `count` digits on. -/
def RoundingInterval.search (i : RoundingInterval) (top : Int) (count : Nat) : Nat → Decimal
  | 0 => ⟨0, 0⟩
  | fuel + 1 =>
    match i.onGrid (top - count) with
    | some digits => ⟨digits, top - count⟩
    | none => i.search top (count + 1) fuel

/-- Moves trailing zeros of the digits into the exponent. -/
def Decimal.normalize (d : Decimal) : Nat → Decimal
  | 0 => d
  | fuel + 1 =>
    if d.digits != 0 && d.digits % 10 == 0 then
      Decimal.normalize ⟨d.digits / 10, d.exponent + 1⟩ fuel
    else d

/-- The shortest decimal of the absolute value of a finite double. -/
def shortest (x : Float) : Decimal :=
  let p := partsOf x
  if p.significand == 0 then ⟨0, 0⟩
  else
    let i := roundingInterval p
    -- Seventeen digits always suffice.
    (i.search i.decimalExponent 1 20).normalize 20

end SourceAtlas.Binary64
