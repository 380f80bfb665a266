/-
# The arithmetic of scores

Scores are computed in an arithmetic with infinities and a value that is no number. The statistics
are written once for any such arithmetic: doubles mixed with whole numbers when the program runs,
exact numbers where only the mathematics matters. A score may also be absent, and then nothing can
be computed with it or ordered against it.
-/

import SourceAtlas.Number.Basic

namespace SourceAtlas.Analysis

/-- Why a figure cannot be computed. -/
inductive ScoreFault where
  | arithmetic (fault : ArithmeticFault)
  /-- An absent score was ordered or computed with. -/
  | absentScore
  /-- A percentile lies outside of zero to one. -/
  | percentileRange
deriving DecidableEq, Repr

def percentileRangeMessage : String := "Percentile must be between 0 and 1"

def roundedNaNMessage : String := "cannot convert float NaN to integer"

/-- The arithmetic in which scores are computed. -/
class Arithmetic (α : Type) where
  /-- A whole number. -/
  ofInt : Int → α
  /-- The value of a fraction, or the nearest one to it. -/
  ofFraction : Int → Nat → α
  /-- What is greater than every number. -/
  infinity : α
  /-- What is no number. -/
  notANumber : α
  add : α → α → Except ScoreFault α
  sub : α → α → Except ScoreFault α
  mul : α → α → Except ScoreFault α
  div : α → α → Except ScoreFault α
  /-- Strictly less. -/
  less : α → α → Except ScoreFault Bool
  /-- Equal in value. -/
  same : α → α → Bool
  /-- Whether a value is a number and not infinite. -/
  isFinite : α → Except ScoreFault Bool
  /-- The least whole number that is not below a value. -/
  ceil : α → Except ScoreFault Int

def liftArithmetic {α : Type} : Except ArithmeticFault α → Except ScoreFault α
  | .ok a => .ok a
  | .error fault => .error (.arithmetic fault)

instance : Arithmetic Number where
  ofInt n := .int n
  ofFraction top bottom := .float (Binary64.nearest (top < 0) top.natAbs bottom)
  infinity := .float (Binary64.infinity)
  notANumber := .float Binary64.notANumber
  add a b := liftArithmetic (a.add b)
  sub a b := liftArithmetic (a.sub b)
  mul a b := liftArithmetic (a.mul b)
  div a b := liftArithmetic (a.div b)
  less a b := .ok (a.lt b)
  same a b := a.eq b
  isFinite a := liftArithmetic a.isFinite
  ceil a := liftArithmetic a.ceil

/-- Applies an operation to two scores that are both there. -/
def onPresent {α β : Type} (f : α → α → Except ScoreFault β) :
    Option α → Option α → Except ScoreFault β
  | some a, some b => f a b
  | _, _ => .error .absentScore

/-- Scores that may be absent. An absent score is not finite and equals only an absent one. -/
instance {α : Type} [Arithmetic α] : Arithmetic (Option α) where
  ofInt n := some (Arithmetic.ofInt n)
  ofFraction top bottom := some (Arithmetic.ofFraction top bottom)
  infinity := some Arithmetic.infinity
  notANumber := some Arithmetic.notANumber
  add := onPresent fun a b => some <$> Arithmetic.add a b
  sub := onPresent fun a b => some <$> Arithmetic.sub a b
  mul := onPresent fun a b => some <$> Arithmetic.mul a b
  div := onPresent fun a b => some <$> Arithmetic.div a b
  less := onPresent Arithmetic.less
  same
    | some a, some b => Arithmetic.same a b
    | none, none => true
    | _, _ => false
  isFinite
    | some a => Arithmetic.isFinite a
    | none => .ok false
  ceil
    | some a => Arithmetic.ceil a
    | none => .error .absentScore

namespace Arithmetic

variable {α : Type} [Arithmetic α]

/-- The sum of values, from the first to the last, starting from the whole number zero. -/
def sum (values : List α) : Except ScoreFault α :=
  values.foldlM add (ofInt 0)

/-- Puts a value into an ordered list, before the values that are not less than it. -/
def insertOrdered (value : α) : List α → Except ScoreFault (List α)
  | [] => .ok [value]
  | first :: rest => do
    if ← less first value then return first :: (← insertOrdered value rest)
    else return value :: first :: rest

/-- The values from the least to the greatest; equal ones keep their order. -/
def ordered (values : List α) : Except ScoreFault (List α) :=
  values.foldrM insertOrdered []

def finiteOnes (values : List α) : Except ScoreFault (List α) :=
  values.filterM isFinite

end Arithmetic

end SourceAtlas.Analysis
