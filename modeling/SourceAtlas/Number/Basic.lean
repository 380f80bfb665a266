/-
# Numbers

A number is a whole number of any size or a double, and keeps that kind through a computation:
sums, differences and products of whole numbers are whole and exact, a quotient is always a double,
and a mixed operation is done in doubles. Comparisons never round.
-/

import SourceAtlas.Number.Shortest

namespace SourceAtlas

/-- A whole number or a double. -/
inductive Number where
  | int (n : Int)
  | float (x : Float)

/-- Why a computation with numbers has no result. -/
inductive ArithmeticFault where
  /-- A whole number is too large for a double. -/
  | overflow
  /-- A NaN was rounded to a whole number. -/
  | roundedNaN
  /-- A division by zero. -/
  | zeroDivisor
deriving DecidableEq, Repr

namespace Number

open Binary64

/-- The double nearest to a whole number. -/
def floatOfInt (n : Int) : Except ArithmeticFault Float :=
  let x := nearest (n < 0) n.natAbs 1
  if x.isInf then .error .overflow else .ok x

def toFloat : Number → Except ArithmeticFault Float
  | .int n => floatOfInt n
  | .float x => .ok x

/-- An operation that is exact on whole numbers and otherwise done in doubles. -/
def combine (onInt : Int → Int → Int) (onFloat : Float → Float → Float) (a b : Number) :
    Except ArithmeticFault Number :=
  match a, b with
  | .int m, .int n => .ok (.int (onInt m n))
  | a, b => do return .float (onFloat (← a.toFloat) (← b.toFloat))

def add : Number → Number → Except ArithmeticFault Number :=
  combine (· + ·) (· + ·)

def sub : Number → Number → Except ArithmeticFault Number :=
  combine (· - ·) (· - ·)

def mul : Number → Number → Except ArithmeticFault Number :=
  combine (· * ·) (· * ·)

/-- The quotient as a double; of two whole numbers, the double nearest to the exact quotient. -/
def div (a b : Number) : Except ArithmeticFault Number :=
  match a, b with
  | .int m, .int n =>
    if n == 0 then .error .zeroDivisor
    else
      let x := nearest ((m < 0) != (n < 0)) m.natAbs n.natAbs
      if x.isInf then .error .overflow else .ok (.float x)
  | a, b => do
    let x ← a.toFloat
    let y ← b.toFloat
    if y == 0.0 then .error .zeroDivisor else .ok (.float (x / y))

/-- A finite double as an exact fraction with a power of two below the line. -/
def fractionOf (x : Float) : Int × Nat :=
  let p := partsOf x
  let top : Int := p.significand * Nat.pow 2 p.exponent.toNat
  (if p.negative then -top else top, Nat.pow 2 (-p.exponent).toNat)

/-- Compares a whole number with a double exactly; a NaN compares with nothing. -/
def compareInt (n : Int) (x : Float) : Option Ordering :=
  if x.isNaN then none
  else if x.isInf then some (if signBit x then .gt else .lt)
  else
    let (top, bottom) := fractionOf x
    some (compare (n * bottom) top)

/-- Compares two doubles; a NaN compares with nothing. -/
def compareFloat (x y : Float) : Option Ordering :=
  if x < y then some .lt else if y < x then some .gt else if x == y then some .eq else none

/-- The exact order of two numbers, if neither is a NaN. -/
def order : Number → Number → Option Ordering
  | .int m, .int n => some (compare m n)
  | .int m, .float y => compareInt m y
  | .float x, .int n => (compareInt n x).map Ordering.swap
  | .float x, .float y => compareFloat x y

/-- Strictly less; false where a NaN takes part. -/
def lt (a b : Number) : Bool :=
  order a b == some .lt

/-- Equal in value; a whole number may equal a double. -/
def eq (a b : Number) : Bool :=
  order a b == some .eq

/-- Whether the number is neither infinite nor a NaN. -/
def isFinite : Number → Except ArithmeticFault Bool
  | .int n => do
    let _ ← floatOfInt n
    return true
  | .float x => .ok x.isFinite

/-- The whole number a finite double is cut to, toward zero. -/
def truncateFloat (x : Float) : Int :=
  let (top, bottom) := fractionOf x
  top.tdiv bottom

/-- The least whole number that is not below the number. -/
def ceil : Number → Except ArithmeticFault Int
  | .int n => .ok n
  | .float x =>
    if x.isNaN then .error .roundedNaN
    else if x.isInf then .error .overflow
    else
      let (top, bottom) := fractionOf x
      .ok (-((-top).fdiv bottom))

end Number

end SourceAtlas
