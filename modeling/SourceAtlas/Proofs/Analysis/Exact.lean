/-
# Exact arithmetic

Where only the mathematics of scores matters they are rational numbers, which are never rounded,
with two infinities beside them and a value that is no number. As with doubles, an infinity less
itself and zero times an infinity are no number, what is no number stands in no order, and a
division by zero has no result at all, whatever is divided.
-/

import Mathlib.Data.Rat.Floor
import Mathlib.Data.Sign.Basic
import Mathlib.Order.WithBot
import SourceAtlas.Proofs.Analysis.Medians

namespace SourceAtlas.Analysis

/-- A rational number, an infinity, or no number. These are the values that doubles stand for,
without rounding and without a largest one. -/
inductive Exact where
  | number (q : ℚ)
  | infinity
  | negativeInfinity
  | notANumber
deriving DecidableEq

namespace Exact

/-- The sign of a value; what is no number has none. -/
def sign : Exact → SignType
  | .number q => SignType.sign q
  | .infinity => 1
  | .negativeInfinity => -1
  | .notANumber => 0

/-- The infinity of a sign; without a sign there is no number. -/
def infinite : SignType → Exact
  | .pos => .infinity
  | .neg => .negativeInfinity
  | .zero => .notANumber

def add : Exact → Exact → Exact
  | .number a, .number b => .number (a + b)
  | .number _, b => b
  | a, .number _ => a
  | a, b => if a = b then a else .notANumber

def negate : Exact → Exact
  | .number q => .number (-q)
  | .infinity => .negativeInfinity
  | .negativeInfinity => .infinity
  | .notANumber => .notANumber

def mul : Exact → Exact → Exact
  | .number a, .number b => .number (a * b)
  | a, b => infinite (a.sign * b.sign)

/-- What multiplies like a division by a value other than zero. -/
def inverse : Exact → Exact
  | .number q => .number q⁻¹
  | .infinity => .number 0
  | .negativeInfinity => .number 0
  | .notANumber => .notANumber

/-- The quotient; there is none by zero. -/
def div (a b : Exact) : Except ScoreFault Exact :=
  if b = .number 0 then .error (.arithmetic .zeroDivisor) else .ok (a.mul b.inverse)

theorem div_number {a b : ℚ} (nonzero : b ≠ 0) :
    (number a).div (.number b) = .ok (.number (a / b)) := by
  have proper : number b ≠ .number 0 := fun same => nonzero (number.inj same)
  rw [div, if_neg proper, inverse, mul, div_eq_mul_inv]

def ceil : Exact → Except ScoreFault Int
  | .number q => .ok ⌈q⌉
  | .infinity => .error (.arithmetic .overflow)
  | .negativeInfinity => .error (.arithmetic .overflow)
  | .notANumber => .error (.arithmetic .roundedNaN)

def isNumber : Exact → Bool
  | .number _ => true
  | _ => false

/-- Where a value stands between the infinities; the place of what is no number means nothing. -/
def place : Exact → WithBot (WithTop ℚ)
  | .number q => ((q : WithTop ℚ) : WithBot (WithTop ℚ))
  | .infinity => ((⊤ : WithTop ℚ) : WithBot (WithTop ℚ))
  | .negativeInfinity => ⊥
  | .notANumber => ⊥

instance : LE Exact where
  le a b := a ≠ .notANumber ∧ b ≠ .notANumber ∧ a.place ≤ b.place

instance : LT Exact where
  lt a b := a ≠ .notANumber ∧ b ≠ .notANumber ∧ a.place < b.place

instance : DecidableLE Exact := fun a b =>
  inferInstanceAs (Decidable (a ≠ .notANumber ∧ b ≠ .notANumber ∧ a.place ≤ b.place))

instance : DecidableLT Exact := fun a b =>
  inferInstanceAs (Decidable (a ≠ .notANumber ∧ b ≠ .notANumber ∧ a.place < b.place))

variable {a b : Exact}

theorem le_iff (left : a ≠ .notANumber) (right : b ≠ .notANumber) :
    a ≤ b ↔ a.place ≤ b.place :=
  ⟨fun h => h.2.2, fun h => ⟨left, right, h⟩⟩

theorem lt_iff (left : a ≠ .notANumber) (right : b ≠ .notANumber) :
    a < b ↔ a.place < b.place :=
  ⟨fun h => h.2.2, fun h => ⟨left, right, h⟩⟩

theorem number_ne_notANumber (q : ℚ) : number q ≠ .notANumber := by
  intro same
  cases same

theorem infinity_ne_notANumber : infinity ≠ .notANumber := by
  intro same
  cases same

@[simp]
theorem number_le_number {p q : ℚ} : number p ≤ number q ↔ p ≤ q := by
  rw [le_iff (number_ne_notANumber p) (number_ne_notANumber q), place, place,
    WithBot.coe_le_coe, WithTop.coe_le_coe]

@[simp]
theorem number_lt_number {p q : ℚ} : number p < number q ↔ p < q := by
  rw [lt_iff (number_ne_notANumber p) (number_ne_notANumber q), place, place,
    WithBot.coe_lt_coe, WithTop.coe_lt_coe]

theorem le_infinity (proper : a ≠ .notANumber) : a ≤ .infinity := by
  rw [le_iff proper infinity_ne_notANumber]
  cases a with
  | number q => exact WithBot.coe_le_coe.mpr le_top
  | infinity => exact le_rfl
  | negativeInfinity => exact bot_le
  | notANumber => exact absurd rfl proper

theorem not_infinity_lt (a : Exact) : ¬ infinity < a := by
  intro above
  exact (le_infinity above.2.1).2.2.not_gt above.2.2

theorem not_lt_negativeInfinity (a : Exact) : ¬ a < negativeInfinity := fun below =>
  not_lt_bot below.2.2

theorem le_of_not_lt (left : a ≠ .notANumber) (right : b ≠ .notANumber) (above : ¬ b < a) :
    a ≤ b := by
  rw [lt_iff right left, not_lt] at above
  exact ⟨left, right, above⟩

theorem eq_of_le_of_not_lt (atMost : a ≤ b) (notBelow : ¬ a < b) : a = b := by
  have level : a.place = b.place := by
    rw [lt_iff atMost.1 atMost.2.1, not_lt] at notBelow
    exact le_antisymm atMost.2.2 notBelow
  obtain ⟨left, right, -⟩ := atMost
  cases a <;> cases b <;> simp_all [place]

/-- What is below a value is at most everything that is not. -/
theorem le_of_lt_of_not_lt {c : Exact} (proper : b ≠ .notANumber) (below : a < c)
    (notBelow : ¬ b < c) : a ≤ b := by
  rw [lt_iff proper below.2.1, not_lt] at notBelow
  exact ⟨below.1, proper, below.2.2.le.trans notBelow⟩

end Exact

/-- The arithmetic of exact values. Comparing and testing are those of doubles: what is no number is
neither less than anything nor the same as anything. -/
instance : Arithmetic Exact where
  ofInt n := .number n
  ofFraction top bottom := .number (top / bottom)
  infinity := .infinity
  notANumber := .notANumber
  add a b := .ok (a.add b)
  sub a b := .ok (a.add b.negate)
  mul a b := .ok (a.mul b)
  div := Exact.div
  less a b := .ok (decide (a < b))
  same a b := decide (a = b ∧ a ≠ .notANumber)
  isFinite a := .ok a.isNumber
  ceil := Exact.ceil

theorem Exact.same_number_zero (q : ℚ) :
    Arithmetic.same (number q) (Arithmetic.ofInt 0) = decide (q = 0) := by
  change decide (number q = .number (0 : ℤ) ∧ number q ≠ .notANumber) = _
  simp

end SourceAtlas.Analysis
