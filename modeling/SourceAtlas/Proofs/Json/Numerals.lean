/-
# Finite numbers are written as numerals

A whole number is written with its digits, and a finite double with its shortest digits: with a
point among them, with zeros before or behind them, or with an exponent. All of these are numerals
of JSON: at least one digit stands before a point, behind a point and in an exponent, and a numeral
that starts with a zero has no other digit before its point. For the last the digits of a double
must be no zero that zeros are added to, and the search for the shortest digits starts at the first
place that the value reaches.
-/

import Mathlib.Tactic.Ring
import SourceAtlas.Json.Strict
import SourceAtlas.Proofs.Json.Document

namespace SourceAtlas

namespace Binary64

/-- Whether a power of ten is at most the value in the middle of an interval. -/
def RoundingInterval.Reaches (i : RoundingInterval) (exponent : Int) : Prop :=
  i.denominator * 10 ^ exponent.toNat ≤ i.value * 10 ^ (-exponent).toNat

theorem pow_ten_pos (k : Nat) : 0 < 10 ^ k := Nat.pow_pos (by decide)

theorem RoundingInterval.Reaches.of_le {i : RoundingInterval} {low high : Int}
    (reaches : i.Reaches high) (below : low ≤ high) : i.Reaches low := by
  obtain ⟨k, places⟩ : ∃ k, low.toNat + (-high).toNat + k = high.toNat + (-low).toNat :=
    ⟨(high - low).toNat, by omega⟩
  have scaled : i.denominator * 10 ^ low.toNat * 10 ^ k * 10 ^ (-high).toNat ≤
      i.value * 10 ^ (-low).toNat * 10 ^ (-high).toNat :=
    calc i.denominator * 10 ^ low.toNat * 10 ^ k * 10 ^ (-high).toNat
        = i.denominator * 10 ^ (low.toNat + (-high).toNat + k) := by ring
      _ = i.denominator * 10 ^ high.toNat * 10 ^ (-low).toNat := by rw [places]; ring
      _ ≤ i.value * 10 ^ (-high).toNat * 10 ^ (-low).toNat := Nat.mul_le_mul_right _ reaches
      _ = i.value * 10 ^ (-low).toNat * 10 ^ (-high).toNat := by ring
  exact (Nat.le_mul_of_pos_right _ (pow_ten_pos k)).trans
    (Nat.le_of_mul_le_mul_right scaled (pow_ten_pos _))

theorem lt_pow_digitCount (n : Nat) : n < 10 ^ digitCount n :=
  (Nat.length_toDigits_le_iff (by decide) Nat.length_toDigits_pos).mp (Nat.le_refl _)

theorem pow_digitCount_le {n k : Nat} (positive : 0 < n) (places : digitCount n = k + 1) :
    10 ^ k ≤ n := by
  cases k with
  | zero => exact positive
  | succ k =>
      refine Nat.le_of_not_lt fun small => ?_
      have fewer := (Nat.length_toDigits_le_iff (by decide) k.succ_pos).mpr small
      rw [digitCount] at places
      omega

/-- The numbers of digits alone tell a power of ten that is reached. -/
theorem RoundingInterval.reaches_of_digitCount {i : RoundingInterval} (positive : 0 < i.value)
    {exponent : Int}
    (small : exponent < (digitCount i.value : Int) - digitCount i.denominator) :
    i.Reaches exponent := by
  obtain ⟨k, places⟩ : ∃ k, digitCount i.value = k + 1 :=
    Nat.exists_eq_succ_of_ne_zero (Nat.length_toDigits_pos).ne'
  have enough : digitCount i.denominator + exponent.toNat ≤ k + (-exponent).toNat := by omega
  calc i.denominator * 10 ^ exponent.toNat
      ≤ 10 ^ digitCount i.denominator * 10 ^ exponent.toNat :=
        Nat.mul_le_mul_right _ (lt_pow_digitCount _).le
    _ = 10 ^ (digitCount i.denominator + exponent.toNat) := (Nat.pow_add ..).symm
    _ ≤ 10 ^ (k + (-exponent).toNat) := Nat.pow_le_pow_right (by decide) enough
    _ = 10 ^ k * 10 ^ (-exponent).toNat := Nat.pow_add ..
    _ ≤ i.value * 10 ^ (-exponent).toNat :=
        Nat.mul_le_mul_right _ (pow_digitCount_le positive places)

/-- The search starts at the first place that the value reaches. -/
theorem RoundingInterval.reaches_decimalExponent {i : RoundingInterval} (positive : 0 < i.value) :
    i.Reaches (i.decimalExponent - 1) := by
  rw [decimalExponent]
  split
  · exact reaches_of_digitCount positive (by omega)
  next reached =>
    rw [Int.add_sub_cancel]
    exact Nat.le_of_not_lt reached

/-- A multiple that is found at a place that the value reaches is not zero. -/
theorem RoundingInterval.ne_zero_of_onGrid {i : RoundingInterval} {exponent : Int} {digits : Nat}
    (positive : 0 < i.denominator) (reaches : i.Reaches exponent)
    (found : i.onGrid exponent = some digits) : digits ≠ 0 := by
  have cell : 0 < i.denominator * Nat.pow 10 exponent.toNat :=
    Nat.mul_pos positive (pow_ten_pos _)
  have below : 0 < i.value * Nat.pow 10 (-exponent).toNat /
      (i.denominator * Nat.pow 10 exponent.toNat) :=
    Nat.div_pos reaches cell
  simp only [onGrid] at found
  generalize i.value * Nat.pow 10 (-exponent).toNat /
      (i.denominator * Nat.pow 10 exponent.toNat) = quotient at below found
  grind

theorem RoundingInterval.digits_search {i : RoundingInterval} {top : Int}
    (positive : 0 < i.denominator) (reaches : i.Reaches (top - 1)) (count fuel : Nat) :
    (i.search top (count + 1) fuel).digits = 0 → (i.search top (count + 1) fuel).exponent = 0 := by
  induction fuel generalizing count with
  | zero => exact fun _ => rfl
  | succ fuel ih =>
      rw [search]
      cases found : i.onGrid (top - (count + 1 : Nat)) with
      | none => exact ih (count + 1)
      | some digits =>
          have reached : i.Reaches (top - (count + 1 : Nat)) := reaches.of_le (by omega)
          intro zero
          exact absurd zero (ne_zero_of_onGrid positive reached found)

theorem Decimal.digits_normalize {d : Decimal} (plain : d.digits = 0 → d.exponent = 0)
    (fuel : Nat) : (d.normalize fuel).digits = 0 → (d.normalize fuel).exponent = 0 := by
  induction fuel generalizing d with
  | zero => exact plain
  | succ fuel ih =>
      rw [normalize]
      split
      next trailing =>
        refine ih fun zero => ?_
        simp only [Bool.and_eq_true, bne_iff_ne, beq_iff_eq] at trailing
        have quotient : d.digits / 10 = 0 := zero
        omega
      next => exact plain

/-- Only a zero is written with the digit zero, and it has no places before or behind that digit. -/
theorem exponent_shortest {x : Float} (zero : (shortest x).digits = 0) :
    (shortest x).exponent = 0 := by
  rw [shortest] at zero ⊢
  split at zero
  next none => rw [if_pos none]
  next some =>
    have significand : 0 < (partsOf x).significand := by
      simpa [Nat.pos_iff_ne_zero] using some
    rw [if_neg some]
    refine Decimal.digits_normalize ?_ 20 zero
    refine RoundingInterval.digits_search ?_ (RoundingInterval.reaches_decimalExponent ?_) 0 20
    · exact Nat.mul_pos (by decide) (Nat.pow_pos (by decide))
    · exact Nat.mul_pos (Nat.mul_pos (by decide) significand) (Nat.pow_pos (by decide))

end Binary64

namespace Json

open Number Binary64

/-- Whether characters are one or more digits. -/
structure IsDigits (chars : List Char) : Prop where
  nonempty : chars ≠ []
  digits : ∀ c ∈ chars, c.isDigit = true

theorem isDigits_natDigits (n : Nat) : IsDigits (natDigits n) where
  nonempty := Nat.toDigits_ne_nil
  digits := fun _ => Nat.isDigit_of_mem_toDigits (by decide) (by decide)

theorem isDigit_of_mem_zeros {c : Char} {count : Nat} (listed : c ∈ List.replicate count '0') :
    c.isDigit = true := by
  rw [List.eq_of_mem_replicate listed]
  rfl

theorem IsDigits.zeros_append {chars : List Char} (digits : IsDigits chars) (count : Nat) :
    IsDigits (List.replicate count '0' ++ chars) where
  nonempty := List.append_ne_nil_of_right_ne_nil _ digits.nonempty
  digits := List.forall_mem_append.mpr ⟨fun _ => isDigit_of_mem_zeros, digits.digits⟩

theorem IsDigits.append_zeros {chars : List Char} (digits : IsDigits chars) (count : Nat) :
    IsDigits (chars ++ List.replicate count '0') where
  nonempty := List.append_ne_nil_of_left_ne_nil digits.nonempty _
  digits := List.forall_mem_append.mpr ⟨digits.digits, fun _ => isDigit_of_mem_zeros⟩

/-- Only the digits of zero start with a zero. -/
theorem eq_zero_of_head_natDigits {n : Nat} (zero : (natDigits n).head? = some '0') : n = 0 := by
  induction n using Nat.strongRecOn with
  | ind n ih =>
      rw [natDigits, Nat.toDigits_eq_if (by decide)] at zero
      split at zero
      next small =>
        have only : ∀ k : Fin 10, k.val.digitChar = '0' → k.val = 0 := by decide
        exact only ⟨n, small⟩ (Option.some.inj zero)
      next large =>
        rw [List.head?_append_of_ne_nil _ Nat.toDigits_ne_nil] at zero
        have quotient : n / 10 = 0 := ih (n / 10) (by omega) zero
        omega

theorem natDigits_zero : natDigits 0 = ['0'] := Nat.toDigits_zero 10

theorem natDigits_of_head {n : Nat} (zero : (natDigits n).head? = some '0') :
    natDigits n = ['0'] := by
  rw [eq_zero_of_head_natDigits zero, natDigits_zero]

def signText (negative : Bool) : List Char := if negative then ['-'] else []

theorem exists_numeral_nat (negative : Bool) (n : Nat) :
    ∃ m : Numeral, m.text = signText negative ++ natDigits n := by
  have digits := isDigits_natDigits n
  refine ⟨⟨negative, ⟨_, digits.nonempty, digits.digits⟩, natDigits_of_head, none, none⟩, ?_⟩
  simp [Numeral.text, signText]

theorem exists_numeral_point (negative : Bool) {whole fraction : List Char}
    (before : IsDigits whole) (leadingZero : whole.head? = some '0' → whole = ['0'])
    (behind : IsDigits fraction) :
    ∃ m : Numeral, m.text = signText negative ++ (whole ++ '.' :: fraction) := by
  refine ⟨⟨negative, ⟨whole, before.nonempty, before.digits⟩, leadingZero,
    some ⟨fraction, behind.nonempty, behind.digits⟩, none⟩, ?_⟩
  simp [Numeral.text, signText]

/-- Digits with a point are a numeral, if a zero has no places behind it. -/
theorem exists_numeral_positional (negative : Bool) {d : Decimal}
    (plain : d.digits = 0 → d.exponent = 0) :
    ∃ m : Numeral, m.text = signText negative ++
      positional (natDigits d.digits) ((natDigits d.digits).length + d.exponent) := by
  have digits := isDigits_natDigits d.digits
  rw [positional]
  split
  next before =>
    exact exists_numeral_point negative (isDigits_natDigits 0) (fun _ => natDigits_zero)
      (digits.zeros_append _)
  next inside =>
    split
    next behind =>
      refine exists_numeral_point negative (digits.append_zeros _) ?_ (isDigits_natDigits 0)
      intro zero
      rw [List.head?_append_of_ne_nil _ digits.nonempty] at zero
      have none := eq_zero_of_head_natDigits zero
      rw [none, plain none, natDigits_zero]
      rfl
    next among =>
      generalize (natDigits d.digits).length + d.exponent = point at inside among
      refine exists_numeral_point negative ⟨?_, ?_⟩ ?_ ⟨?_, ?_⟩
      · exact List.ne_nil_of_length_pos (by rw [List.length_take]; omega)
      · exact fun c listed => digits.digits c (List.mem_of_mem_take listed)
      · intro zero
        rw [List.head?_take, if_neg (by omega)] at zero
        rw [natDigits_of_head zero, List.length_singleton] at among
        omega
      · exact List.ne_nil_of_length_pos (by rw [List.length_drop]; omega)
      · exact fun c listed => digits.digits c (List.mem_of_mem_drop listed)

/-- Digits with an exponent are a numeral. -/
theorem exists_numeral_exponential (negative : Bool) (n : Nat) (exponent : Int) :
    ∃ m : Numeral, m.text = signText negative ++ exponential jsonFormat (natDigits n) exponent := by
  have power : IsDigits (paddedDigits jsonFormat.exponentDigits exponent.natAbs) :=
    (isDigits_natDigits _).zeros_append _
  have written (digits : Digits) : Exponent.text ⟨false, some (decide (exponent < 0)), digits⟩ =
      'e' :: (if exponent < 0 then '-' else '+') :: digits.chars := by
    by_cases below : exponent < 0 <;> simp [Exponent.text, below]
  obtain ⟨d, rest, first⟩ := List.exists_cons_of_ne_nil (isDigits_natDigits n).nonempty
  have digits := (isDigits_natDigits n).digits
  rw [first, List.forall_mem_cons] at digits
  have lead : IsDigits [d] := ⟨List.cons_ne_nil _ _, by simpa using digits.1⟩
  rw [first]
  cases rest with
  | nil =>
      refine ⟨⟨negative, ⟨[d], lead.nonempty, lead.digits⟩, by simp, none,
        some ⟨false, some (decide (exponent < 0)), ⟨_, power.nonempty, power.digits⟩⟩⟩, ?_⟩
      simp [Numeral.text, written, exponential, signText]
  | cons e rest =>
      refine ⟨⟨negative, ⟨[d], lead.nonempty, lead.digits⟩, by simp,
        some ⟨e :: rest, List.cons_ne_nil _ _, digits.2⟩,
        some ⟨false, some (decide (exponent < 0)), ⟨_, power.nonempty, power.digits⟩⟩⟩, ?_⟩
      simp [Numeral.text, written, exponential, signText]

theorem isFinite_iff {x : Float} : x.isFinite = true ↔ x.isNaN = false ∧ x.isInf = false := by
  change x.toModel.unpack.isFinite = true ↔
    x.toModel.unpack.isNaN = false ∧ x.toModel.unpack.isInf = false
  cases x.toModel.unpack with
  | zero sign => exact ⟨fun _ => ⟨rfl, rfl⟩, fun _ => rfl⟩
  | finite sign mantissa exponent positive => exact ⟨fun _ => ⟨rfl, rfl⟩, fun _ => rfl⟩
  | notANumber =>
      constructor
      · intro finite
        cases finite
      · intro neither
        cases neither.1
  | infinity sign =>
      constructor
      · intro finite
        cases finite
      · intro neither
        cases neither.2

/-- Every number that JSON can spell is written as a numeral. -/
theorem exists_numeral {n : Number} (spellable : isSpellable n = true) :
    ∃ m : Numeral, m.text = (n.text jsonFormat).toList := by
  cases n with
  | int n =>
      obtain ⟨m, text⟩ := exists_numeral_nat (decide (n < 0)) n.natAbs
      refine ⟨m, text.trans ?_⟩
      by_cases below : n < 0 <;> simp [Number.text, intText, signText, below]
  | float x =>
      obtain ⟨isNumber, bounded⟩ := isFinite_iff.mp spellable
      rw [Number.text, floatText, isNumber, bounded, if_neg Bool.false_ne_true,
        if_neg Bool.false_ne_true, String.toList_ofList]
      change ∃ m : Numeral, m.text = signText (signBit x) ++ ite _ (positional _ _) _
      split
      · exact exists_numeral_positional (signBit x) exponent_shortest
      · exact exists_numeral_exponential (signBit x) _ _

end Json

end SourceAtlas
