/-
# Tokens are read as what they stand for

Each string and each number, written in any of the ways JSON has, is read as its value, and reading
stops behind it. A number ends where no digit, point or exponent can follow.
-/

import SourceAtlas.Proofs.Json.Document

namespace SourceAtlas.Json

theorem hex4Value?_append {digits : List Char} {n : Nat} (four : digits.length = 4)
    (spelled : hex4Value? digits = some n) (rest : List Char) :
    hex4Value? (digits ++ rest) = some n := by
  match digits, four with
  | [a, b, c, d], _ => exact spelled

theorem simpleEscape?_of_mem {letter c : Char} (known : (letter, c) ∈ escapeLetters) :
    letter ≠ 'u' ∧ simpleEscape? letter = some c := by
  revert letter c
  simp only [escapeLetters, List.mem_cons, List.not_mem_nil, or_false, Prod.mk.injEq]
  rintro letter c (⟨rfl, rfl⟩ | ⟨rfl, rfl⟩ | ⟨rfl, rfl⟩ | ⟨rfl, rfl⟩ | ⟨rfl, rfl⟩ | ⟨rfl, rfl⟩ |
    ⟨rfl, rfl⟩ | ⟨rfl, rfl⟩) <;> decide

theorem readString_char {c : Char} (shown : 0x20 ≤ c.toNat) (noQuote : c ≠ '"')
    (noEscape : c ≠ '\\') (opened fuel position : Nat) (rest done : List Char) :
    readString opened (fuel + 1) ⟨c :: rest, position⟩ done =
      readString opened fuel ⟨rest, position + 1⟩ (c :: done) := by
  rw [readString]
  split <;> grind

theorem readString_escape {letter c : Char} (known : (letter, c) ∈ escapeLetters)
    (opened fuel position : Nat) (rest done : List Char) :
    readString opened (fuel + 1) ⟨'\\' :: letter :: rest, position⟩ done =
      readString opened fuel ⟨rest, position + 2⟩ (c :: done) := by
  obtain ⟨noUnit, stands⟩ := simpleEscape?_of_mem known
  rw [readString.eq_def]
  simp [stands]

theorem itemsText_unit (digits : List Char) (n : Nat) (four : digits.length = 4)
    (spelled : hex4Value? digits = some n) (items : List StringItem) (rest : List Char) :
    itemsText (.unit digits n four spelled :: items) ++ rest =
      '\\' :: 'u' :: (digits ++ (itemsText items ++ rest)) := by
  simp [itemsText, StringItem.text]

section Units

variable {digits : List Char} {n : Nat} (four : digits.length = 4)
  (spelled : hex4Value? digits = some n)
include four spelled

/-- A unit is read by itself unless it begins a pair. -/
theorem readString_unit {rest : List Char} (going : rest ≠ [])
    (alone : isHighUnit n = true → lowSurrogate? rest = none)
    (opened fuel position : Nat) (done : List Char) :
    readString opened (fuel + 1) ⟨'\\' :: 'u' :: (digits ++ rest), position⟩ done =
      readString opened fuel ⟨rest, position + 6⟩ (unitChar n :: done) := by
  have behind : (digits ++ rest).drop 4 = rest := by rw [← four, List.drop_left]
  have more : rest.isEmpty = false := by simpa using going
  rw [readString]
  simp only [behind, more, hex4Value?_append four spelled, Rest.drop, List.drop_succ_cons]
  cases high : isHighUnit n with
  | true =>
      have range := high
      simp only [isHighUnit] at range
      simp [range, alone high, unitChar, high]
  | false =>
      have range := high
      simp only [isHighUnit] at range
      simp [range, unitChar, high, isLowUnit]

theorem readString_pair {rest : List Char} {low : Nat} (high : isHighUnit n = true)
    (paired : lowSurrogate? rest = some (.ok low)) (opened fuel position : Nat)
    (done : List Char) :
    readString opened (fuel + 1) ⟨'\\' :: 'u' :: (digits ++ rest), position⟩ done =
      readString opened fuel ⟨rest.drop 6, position + 12⟩ (pairChar n low :: done) := by
  have behind : (digits ++ rest).drop 4 = rest := by rw [← four, List.drop_left]
  have more : rest.isEmpty = false := by
    cases rest with
    | nil => simp [lowSurrogate?] at paired
    | cons c rest => rfl
  rw [readString]
  simp only [behind, more, hex4Value?_append four spelled, Rest.drop, List.drop_succ_cons]
  simp only [isHighUnit] at high
  simp [high, paired, pairChar]

theorem lowSurrogate?_unit {rest : List Char} (going : rest ≠ []) :
    lowSurrogate? ('\\' :: 'u' :: (digits ++ rest)) =
      if isLowUnit n then some (.ok n) else none := by
  have behind : (digits ++ rest).drop 4 = rest := by rw [← four, List.drop_left]
  simp [lowSurrogate?, behind, going, hex4Value?_append four spelled, isLowUnit]

end Units

/-- Only a unit can complete a pair. -/
theorem lowSurrogate?_of_not_unit {items : List StringItem}
    (other : ∀ digits n four spelled rest, items ≠ .unit digits n four spelled :: rest)
    (rest : List Char) : lowSurrogate? (itemsText items ++ '"' :: rest) = none := by
  match items, other with
  | [], _ => rfl
  | .char c shown noQuote noEscape :: items, _ =>
      have begun : itemsText (.char c shown noQuote noEscape :: items) = c :: itemsText items := rfl
      rw [begun, List.cons_append, lowSurrogate?]
      simp [noEscape]
  | .escape letter c known :: items, _ =>
      have begun : itemsText (.escape letter c known :: items) =
        '\\' :: letter :: itemsText items := rfl
      have noUnit := (simpleEscape?_of_mem known).1
      rw [begun, List.cons_append, List.cons_append, lowSurrogate?]
      simp [noUnit]
  | .unit digits n four spelled :: items, other =>
      exact absurd rfl (other digits n four spelled items)

/-- The inside of a string is read as what its items stand for. -/
theorem readString_items (opened : Nat) (items : List StringItem) :
    ∀ extra position rest done, ∃ behind,
      readString opened (extra + items.length + 1) ⟨itemsText items ++ '"' :: rest, position⟩ done =
        .ok (String.ofList (done.reverse ++ meaning items), ⟨rest, behind⟩) := by
  induction items using meaning.induct with
  | case1 =>
      intro extra position rest done
      exact ⟨position + 1, by simp [readString, itemsText, meaning]⟩
  | case2 c shown noQuote noEscape items ih =>
      intro extra position rest done
      obtain ⟨behind, read⟩ := ih extra (position + 1) rest (c :: done)
      refine ⟨behind, (readString_char shown noQuote noEscape _ _ _ _ _).trans (read.trans ?_)⟩
      simp [meaning]
  | case3 letter c known items ih =>
      intro extra position rest done
      obtain ⟨behind, read⟩ := ih extra (position + 2) rest (c :: done)
      refine ⟨behind, (readString_escape known _ _ _ _ _).trans (read.trans ?_)⟩
      simp [meaning]
  | case4 digits n four spelled digits' m four' spelled' items paired ih =>
      intro extra position rest done
      obtain ⟨behind, read⟩ := ih (extra + 1) (position + 12) rest (pairChar n m :: done)
      have halves := Bool.and_eq_true_iff.1 paired
      have low : lowSurrogate? ('\\' :: 'u' :: (digits' ++ (itemsText items ++ '"' :: rest))) =
          some (.ok m) := by
        rw [lowSurrogate?_unit four' spelled' (by simp), if_pos halves.2]
      have left : ('\\' :: 'u' :: (digits' ++ (itemsText items ++ '"' :: rest))).drop 6 =
          itemsText items ++ '"' :: rest := by
        rw [List.drop_succ_cons, List.drop_succ_cons, ← four', List.drop_left]
      -- the pair takes two items and one step
      rw [Nat.add_right_comm extra 1] at read
      refine ⟨behind, ?_⟩
      rw [itemsText_unit, itemsText_unit, readString_pair four spelled halves.1 low, left]
      refine read.trans ?_
      simp [meaning, paired]
  | case5 digits n four spelled digits' m four' spelled' items unpaired ih =>
      intro extra position rest done
      obtain ⟨behind, read⟩ := ih extra (position + 6) rest (unitChar n :: done)
      refine ⟨behind, ?_⟩
      rw [itemsText_unit, readString_unit four spelled (by simp)]
      · refine read.trans ?_
        simp [meaning, unpaired]
      · intro high
        rw [itemsText_unit, lowSurrogate?_unit four' spelled' (by simp), if_neg]
        simpa [high] using unpaired
  | case6 digits n four spelled items other ih =>
      intro extra position rest done
      obtain ⟨behind, read⟩ := ih extra (position + 6) rest (unitChar n :: done)
      refine ⟨behind, ?_⟩
      rw [itemsText_unit, readString_unit four spelled (by simp) fun _ =>
        lowSurrogate?_of_not_unit other rest]
      refine read.trans ?_
      rw [meaning]
      · simp
      · exact other

theorem length_le_itemsText (items : List StringItem) :
    items.length ≤ (itemsText items).length := by
  induction items with
  | nil => exact Nat.le_refl _
  | cons item items ih =>
      have written : 0 < item.text.length := by cases item <;> simp [StringItem.text]
      have whole : itemsText (item :: items) = item.text ++ itemsText items := rfl
      rw [whole, List.length_cons, List.length_append]
      omega

/-- A string behind its opening quote is read as what it stands for. -/
theorem readString_stringText (items : List StringItem) (opened position : Nat)
    (rest : List Char) :
    ∃ behind, readString opened ((itemsText items ++ '"' :: rest).length + 1)
        ⟨itemsText items ++ '"' :: rest, position⟩ [] =
      .ok (String.ofList (meaning items), ⟨rest, behind⟩) := by
  have enough : items.length ≤ (itemsText items ++ '"' :: rest).length := by
    rw [List.length_append]
    exact Nat.le_add_right_of_le (length_le_itemsText items)
  obtain ⟨extra, total⟩ := Nat.exists_eq_add_of_le' enough
  rw [total]
  exact readString_items opened items extra position rest []

/-! ## Numbers -/

/-- Whether a character ends a number or a word. -/
def isDelimiter (c : Char) : Bool := isSpace c || c == ',' || c == ']' || c == '\x7d'

/-- Whether a text is at its end or begins with a character that ends a number. -/
def Delimits (text : List Char) : Prop := ∀ c, text.head? = some c → isDelimiter c = true

/-- Whether a text does not go on with a digit. -/
def NoDigitNext (text : List Char) : Prop := ∀ c, text.head? = some c → c.isDigit = false

theorem noDigitNext_cons {c : Char} (noDigit : c.isDigit = false) (rest : List Char) :
    NoDigitNext (c :: rest) := by
  rintro _ ⟨⟩
  exact noDigit

theorem not_isDigit_of_isDelimiter {c : Char} (delimiter : isDelimiter c = true) :
    c.isDigit = false ∧ c ≠ '.' ∧ c ≠ 'e' ∧ c ≠ 'E' := by
  simp only [isDelimiter, isSpace, Bool.or_eq_true, beq_iff_eq] at delimiter
  rcases delimiter with (((((rfl | rfl) | rfl) | rfl) | rfl) | rfl) | rfl <;> decide

theorem takeWhile_append_of_stop {p : Char → Bool} {front text : List Char}
    (inside : ∀ c ∈ front, p c = true) (stop : ∀ c, text.head? = some c → p c = false) :
    (front ++ text).takeWhile p = front := by
  rw [List.takeWhile_append_of_pos inside]
  cases text with
  | nil => simp
  | cons c rest => rw [List.takeWhile_cons_of_neg (by simp [stop c rfl]), List.append_nil]

theorem takeWhile_isDigit_append (d : Digits) {text : List Char} (stop : NoDigitNext text) :
    (d.chars ++ text).takeWhile Char.isDigit = d.chars :=
  takeWhile_append_of_stop d.digits stop

theorem Digits.head_isDigit (d : Digits) : ∃ c rest, d.chars = c :: rest ∧ c.isDigit = true := by
  obtain ⟨c, rest, whole⟩ := List.exists_cons_of_ne_nil d.nonempty
  exact ⟨c, rest, whole, d.digits c (whole ▸ List.mem_cons_self)⟩

theorem exponentPart?_text (e : Exponent) {rest : List Char} (stop : NoDigitNext rest) :
    exponentPart? (e.text ++ rest) = some (e.value, e.text.length) := by
  have mark : ((if e.capital then 'E' else 'e') == 'e' ||
      (if e.capital then 'E' else 'e') == 'E') = true := by
    cases e.capital <;> rfl
  obtain ⟨c, others, begun, digit⟩ := e.digits.head_isDigit
  have noSign : c ≠ '-' ∧ c ≠ '+' := by
    constructor <;> rintro rfl <;> exact absurd digit (by decide)
  have taken := takeWhile_isDigit_append e.digits stop
  rw [Exponent.text, List.cons_append, exponentPart?, if_pos mark]
  cases sign : e.minus with
  | none =>
      have unsigned : (e.digits.chars ++ rest).head? = some c := by rw [begun]; rfl
      simp [unsigned, noSign, taken, e.digits.nonempty, Exponent.value, sign]
      omega
  | some minus =>
      cases minus <;> simp [taken, e.digits.nonempty, Exponent.value, sign] <;> omega

theorem exponentPart?_of_delimits {rest : List Char} (delimits : Delimits rest) :
    exponentPart? rest = none := by
  cases rest with
  | nil => rfl
  | cons c rest =>
      have other := not_isDigit_of_isDelimiter (delimits c rfl)
      simp [exponentPart?, other]

section Reading

variable (n : Numeral)

def Numeral.fractionText : List Char := (n.fraction.map fun d => '.' :: d.chars).getD []

def Numeral.exponentText : List Char := (n.exponent.map Exponent.text).getD []

theorem Numeral.text_append (rest : List Char) :
    n.text ++ rest = (if n.negative then ['-'] else []) ++
      (n.whole.chars ++ (n.fractionText ++ (n.exponentText ++ rest))) := by
  simp [Numeral.text, Numeral.fractionText, Numeral.exponentText]

variable {rest : List Char} (delimits : Delimits rest)
include delimits

theorem Numeral.exponentPart?_tail :
    exponentPart? (n.exponentText ++ rest) = n.exponent.map fun e => (e.value, e.text.length) := by
  rw [Numeral.exponentText]
  cases n.exponent with
  | none => exact exponentPart?_of_delimits delimits
  | some e =>
      exact exponentPart?_text e fun c begun => (not_isDigit_of_isDelimiter (delimits c begun)).1

theorem Numeral.head_exponentText {c : Char} (begun : (n.exponentText ++ rest).head? = some c) :
    c.isDigit = false ∧ c ≠ '.' := by
  rw [Numeral.exponentText] at begun
  cases given : n.exponent with
  | none =>
      have other := not_isDigit_of_isDelimiter (delimits c (by simpa [given] using begun))
      exact ⟨other.1, other.2.1⟩
  | some e =>
      have mark : (if e.capital then 'E' else 'e') = c := by
        simpa [given, Exponent.text] using begun
      rw [← mark]
      cases e.capital <;> decide

theorem Numeral.fractionDigits_tail :
    fractionDigits (n.fractionText ++ (n.exponentText ++ rest)) = n.fractionChars := by
  rw [Numeral.fractionText, Numeral.fractionChars]
  cases n.fraction with
  | none =>
      have noPoint : ∀ others, n.exponentText ++ rest ≠ '.' :: others := fun others begun =>
        (n.head_exponentText delimits (congrArg List.head? begun)).2 rfl
      simp only [Option.map_none, Option.getD_none, List.nil_append]
      unfold fractionDigits
      split
      · exact absurd ‹_› (noPoint _)
      · rfl
  | some d =>
      exact takeWhile_isDigit_append d fun c begun => (n.head_exponentText delimits begun).1

theorem Numeral.noDigitNext_tail : NoDigitNext (n.fractionText ++ (n.exponentText ++ rest)) := by
  rw [Numeral.fractionText]
  cases n.fraction with
  | none => exact fun c begun => (n.head_exponentText delimits begun).1
  | some d => exact noDigitNext_cons (by decide) _

end Reading

theorem Numeral.fractionLength (n : Numeral) :
    (if n.fractionChars.isEmpty then 0 else n.fractionChars.length + 1) =
      n.fractionText.length := by
  rw [Numeral.fractionText, Numeral.fractionChars]
  cases n.fraction with
  | none => rfl
  | some d => simp [d.nonempty]

theorem Numeral.whole_append (n : Numeral) {text : List Char} (stop : NoDigitNext text) :
    (match n.whole.chars ++ text with
      | '0' :: _ => ['0']
      | body => body.takeWhile Char.isDigit) = n.whole.chars := by
  split
  · rename_i begun
    obtain ⟨c, others, whole, -⟩ := n.whole.head_isDigit
    rw [whole, List.cons_append, List.cons.injEq] at begun
    exact (n.leadingZero (by rw [whole, begun.1]; rfl)).symm
  · exact takeWhile_isDigit_append n.whole stop

/-- A number is read as its value. -/
theorem readNumber_text (n : Numeral)
    (readable : n.fraction = none → n.exponent = none →
      n.whole.chars.length ≤ Number.wholeDigitLimit)
    (position : Nat) {rest : List Char} (delimits : Delimits rest) :
    readNumber ⟨n.text ++ rest, position⟩ =
      .ok (.number n.value, ⟨rest, position + n.text.length⟩) := by
  obtain ⟨c, others, begun, digit⟩ := n.whole.head_isDigit
  unfold readNumber
  extract_lets negative body whole afterWhole fraction fractionLength exponent length value parts
  have negative_eq : negative = n.negative := by
    have noSign : c ≠ '-' := by rintro rfl; exact absurd digit (by decide)
    simp only [negative, n.text_append]
    cases n.negative <;> simp [begun, noSign]
  have body_eq : body = n.whole.chars ++ (n.fractionText ++ (n.exponentText ++ rest)) := by
    simp only [body, negative_eq, n.text_append]
    cases n.negative <;> rfl
  have whole_eq : whole = n.whole.chars := by
    simp only [whole, body_eq]
    exact n.whole_append (n.noDigitNext_tail delimits)
  have afterWhole_eq : afterWhole = n.fractionText ++ (n.exponentText ++ rest) := by
    simp only [afterWhole, whole_eq, body_eq, List.drop_left]
  have fraction_eq : fraction = n.fractionChars := by
    simp only [fraction, afterWhole_eq, n.fractionDigits_tail delimits]
  have fractionLength_eq : fractionLength = n.fractionText.length := by
    simp only [fractionLength, fraction_eq, n.fractionLength]
  have exponent_eq : exponent = n.exponent.map fun e => (e.value, e.text.length) := by
    simp only [exponent, afterWhole_eq, fractionLength_eq, List.drop_left,
      n.exponentPart?_tail delimits]
  have length_eq : length = n.text.length := by
    simp only [length, negative_eq, whole_eq, fractionLength_eq, exponent_eq, Numeral.text,
      Numeral.fractionText]
    cases n.negative <;> cases n.exponent <;> simp <;> omega
  have dropped :
      Rest.drop ⟨n.text ++ rest, position⟩ length = ⟨rest, position + n.text.length⟩ := by
    simp [Rest.drop, length_eq]
  have isWhole : (fraction.isEmpty && exponent.isNone) =
      (n.fraction.isNone && n.exponent.isNone) := by
    rw [fraction_eq, exponent_eq, Option.isNone_map, Numeral.fractionChars]
    cases n.fraction with
    | none => rfl
    | some d => simp [d.nonempty]
  rw [if_neg (by simp [whole_eq, begun]), isWhole, dropped, Numeral.value]
  split
  · rename_i plain
    rw [Bool.and_eq_true, Option.isNone_iff_eq_none, Option.isNone_iff_eq_none] at plain
    rw [if_neg (by rw [whole_eq]; exact Nat.not_lt.2 (readable plain.1 plain.2))]
    simp only [value, whole_eq, negative_eq]
  · have exponentValue : (exponent.map (·.1)).getD 0 = (n.exponent.map Exponent.value).getD 0 := by
      rw [exponent_eq, Option.map_map]
      rfl
    simp only [parts, negative_eq, whole_eq, fraction_eq, exponentValue]

end SourceAtlas.Json
