/-
# Quoted texts can be told apart

What is written for a text between quotes is a string of JSON that stands for that text: every
character is written as itself, as a short escape, as a unit or as a pair of units. A quoted text is
therefore read back, and where it ends is seen from its characters alone.
-/

import SourceAtlas.Json.Writer
import SourceAtlas.Proofs.Json.Tokens

namespace SourceAtlas.Json

theorem hexValue?_digitChar {n : Nat} (small : n < 16) :
    Number.hexValue? n.digitChar = some n := by
  have all : ∀ k : Fin 16, Number.hexValue? k.val.digitChar = some k.val := by decide
  exact all ⟨n, small⟩

/-- The four digits of a unit. -/
theorem hex4_eq {n : Nat} (unit : n < 0x10000) :
    hex4 n = [(n / 4096).digitChar, (n / 256 % 16).digitChar, (n / 16 % 16).digitChar,
      (n % 16).digitChar] := by
  have twice : n / 16 / 16 = n / 256 := by omega
  have thrice : n / 256 / 16 = n / 4096 := by omega
  -- the digits there are, by their number; the rest are zeros
  unfold hex4
  by_cases one : n < 16
  · rw [Nat.toDigits_of_lt_base one, show n / 4096 = 0 by omega, show n / 256 % 16 = 0 by omega,
      show n / 16 % 16 = 0 by omega, Nat.mod_eq_of_lt one]
    rfl
  rw [Nat.toDigits_of_base_le (by decide) (Nat.le_of_not_lt one)]
  by_cases two : n / 16 < 16
  · rw [Nat.toDigits_of_lt_base two, show n / 4096 = 0 by omega, show n / 256 % 16 = 0 by omega,
      Nat.mod_eq_of_lt two]
    rfl
  rw [Nat.toDigits_of_base_le (by decide) (Nat.le_of_not_lt two), twice]
  by_cases three : n / 256 < 16
  · rw [Nat.toDigits_of_lt_base three, show n / 4096 = 0 by omega, Nat.mod_eq_of_lt three]
    rfl
  rw [Nat.toDigits_of_base_le (by decide) (Nat.le_of_not_lt three), thrice,
    Nat.toDigits_of_lt_base (by omega)]
  rfl

theorem length_hex4 {n : Nat} (unit : n < 0x10000) : (hex4 n).length = 4 := by
  rw [hex4_eq unit]
  rfl

theorem hex4Value?_hex4 {n : Nat} (unit : n < 0x10000) : hex4Value? (hex4 n) = some n := by
  rw [hex4_eq unit]
  simp only [hex4Value?, hexValue?_digitChar (show n / 4096 < 16 by omega),
    hexValue?_digitChar (Nat.mod_lt _ (show 0 < 16 by decide)), Option.bind_eq_bind,
    Option.bind_some, Option.pure_def, Option.some.injEq]
  omega

/-- Whether characters inside a string stand for one character, whatever follows them. -/
def Spells (text : List Char) (c : Char) : Prop :=
  ∃ items, itemsText items = text ∧ ∀ rest, meaning (items ++ rest) = c :: meaning rest

theorem spells_char {c : Char} (shown : 0x20 ≤ c.toNat) (noQuote : c ≠ '"') (noEscape : c ≠ '\\') :
    Spells [c] c :=
  ⟨[.char c shown noQuote noEscape], rfl, fun _ => rfl⟩

theorem spells_escape {letter c : Char} (known : (letter, c) ∈ escapeLetters) :
    Spells ['\\', letter] c :=
  ⟨[.escape letter c known], rfl, fun _ => rfl⟩

theorem meaning_unit {digits : List Char} {n : Nat} (four : digits.length = 4)
    (spelled : hex4Value? digits = some n) (alone : isHighUnit n = false)
    (rest : List StringItem) :
    meaning (.unit digits n four spelled :: rest) = unitChar n :: meaning rest := by
  rcases rest with _ | ⟨_ | _ | _, rest⟩ <;> simp [meaning, alone]

theorem not_surrogate (c : Char) : isHighUnit c.toNat = false ∧ isLowUnit c.toNat = false := by
  have valid : c.toNat < 0xD800 ∨ 0xDFFF < c.toNat := c.valid.imp id And.left
  simp only [isHighUnit, isLowUnit, Bool.and_eq_false_iff, decide_eq_false_iff_not]
  omega

theorem spells_unit {c : Char} (small : c.toNat < 0x10000) : Spells (unitEscape c.toNat) c := by
  refine ⟨[.unit (hex4 c.toNat) c.toNat (length_hex4 small) (hex4Value?_hex4 small)], ?_, ?_⟩
  · simp [itemsText, StringItem.text, unitEscape]
  · intro rest
    have alone := not_surrogate c
    rw [List.singleton_append, meaning_unit _ _ alone.1]
    simp [unitChar, alone, Char.ofNat_toNat]

theorem toNat_lt (c : Char) : c.toNat < 0x110000 := by
  have valid : c.toNat < 0xD800 ∨ 0xDFFF < c.toNat ∧ c.toNat < 0x110000 := c.valid
  omega

theorem spells_units {high low : Nat} (isHigh : isHighUnit high = true)
    (isLow : isLowUnit low = true) :
    Spells (unitEscape high ++ unitEscape low) (pairChar high low) := by
  have highUnit : high < 0x10000 := by simp [isHighUnit] at isHigh; omega
  have lowUnit : low < 0x10000 := by simp [isLowUnit] at isLow; omega
  refine ⟨[.unit (hex4 high) high (length_hex4 highUnit) (hex4Value?_hex4 highUnit),
    .unit (hex4 low) low (length_hex4 lowUnit) (hex4Value?_hex4 lowUnit)], ?_, ?_⟩
  · simp [itemsText, StringItem.text, unitEscape]
  · intro rest
    rw [List.cons_append, List.singleton_append, meaning, isHigh, isLow]
    rfl

theorem pairChar_eq {c : Char} {high low : Nat} (large : 0x10000 ≤ c.toNat)
    (first : high = 0xD800 + (c.toNat - 0x10000) / 0x400)
    (second : low = 0xDC00 + (c.toNat - 0x10000) % 0x400) :
    isHighUnit high = true ∧ isLowUnit low = true ∧ pairChar high low = c := by
  have bound := toNat_lt c
  have whole : 0x10000 + (high - 0xD800) * 0x400 + (low - 0xDC00) = c.toNat := by omega
  simp only [isHighUnit, isLowUnit, Bool.and_eq_true, decide_eq_true_eq]
  refine ⟨by omega, by omega, ?_⟩
  rw [pairChar, whole, Char.ofNat_toNat]

theorem spells_pair {c : Char} (large : 0x10000 ≤ c.toNat) :
    Spells (unitEscape (0xD800 + (c.toNat - 0x10000) / 0x400) ++
      unitEscape (0xDC00 + (c.toNat - 0x10000) % 0x400)) c := by
  obtain ⟨isHigh, isLow, whole⟩ := pairChar_eq large rfl rfl
  have spelled := spells_units isHigh isLow
  rwa [whole] at spelled

theorem Spells.ite {p : Prop} [Decidable p] {first second : List Char} {c : Char}
    (yes : p → Spells first c) (no : ¬ p → Spells second c) :
    Spells (if p then first else second) c := by
  by_cases holds : p
  · rw [if_pos holds]
    exact yes holds
  · rw [if_neg holds]
    exact no holds

theorem spells_escape_of_beq {letter c d : Char} (known : (letter, d) ∈ escapeLetters)
    (same : (c == d) = true) : Spells ['\\', letter] c := by
  rw [eq_of_beq same]
  exact spells_escape known

/-- What is written for a character inside quotes stands for it. -/
theorem spells_escapeChar (ascii : Bool) (c : Char) : Spells (escapeChar ascii c) c := by
  refine .ite (spells_escape_of_beq (by decide)) fun noQuote => ?_
  refine .ite (spells_escape_of_beq (by decide)) fun noEscape => ?_
  refine .ite (spells_escape_of_beq (by decide)) fun _ => ?_
  refine .ite (spells_escape_of_beq (by decide)) fun _ => ?_
  refine .ite (spells_escape_of_beq (by decide)) fun _ => ?_
  refine .ite (spells_escape_of_beq (by decide)) fun _ => ?_
  refine .ite (spells_escape_of_beq (by decide)) fun _ => ?_
  have plain (shown : 0x20 ≤ c.toNat) : Spells [c] c :=
    spells_char shown (by simpa using noQuote) (by simpa using noEscape)
  refine .ite (fun control => spells_unit (by omega)) fun visible => ?_
  refine .ite (fun _ => plain (by omega)) fun _ => ?_
  refine .ite (fun _ => plain (by omega)) fun _ => ?_
  exact .ite spells_unit fun large => spells_pair (by omega)

theorem exists_items_escaped (ascii : Bool) (chars : List Char) :
    ∃ items, itemsText items = chars.flatMap (escapeChar ascii) ∧ meaning items = chars := by
  induction chars with
  | nil => exact ⟨[], rfl, rfl⟩
  | cons c chars ih =>
      obtain ⟨first, text, stands⟩ := spells_escapeChar ascii c
      obtain ⟨others, otherText, otherMeaning⟩ := ih
      refine ⟨first ++ others, ?_, by rw [stands, otherMeaning]⟩
      rw [List.flatMap_cons, ← text, ← otherText]
      exact List.flatMap_append

/-- Where a quoted text ends and what it is can be seen from its characters. -/
theorem quote_append_inj {ascii : Bool} {s t : String} {rest rest' : List Char}
    (same : quote ascii s ++ rest = quote ascii t ++ rest') : s = t ∧ rest = rest' := by
  obtain ⟨items, text, stands⟩ := exists_items_escaped ascii s.toList
  obtain ⟨items', text', stands'⟩ := exists_items_escaped ascii t.toList
  have inside : itemsText items ++ '"' :: rest = itemsText items' ++ '"' :: rest' := by
    simpa [quote, text, text'] using same
  obtain ⟨behind, reads⟩ := readString_stringText items 0 0 rest
  obtain ⟨behind', reads'⟩ := readString_stringText items' 0 0 rest'
  rw [inside, reads', stands, stands'] at reads
  injection reads with both
  rw [Prod.mk.injEq, String.ofList_toList, String.ofList_toList, Rest.mk.injEq] at both
  exact ⟨both.1.symm, both.2.1.symm⟩

end SourceAtlas.Json
