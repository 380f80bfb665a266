/-
# Comments and extra commas are taken out, and nothing else

The copier walks over the text of a document with what it has copied so far. Over white space,
comments and values it adds what they leave behind in plain JSON. An extra comma is copied at first
and is the last visible character until the closing bracket takes it away: a value never ends in a
comma, so no other comma is lost there.
-/

import SourceAtlas.Json.Comments
import SourceAtlas.Proofs.Json.Document

namespace SourceAtlas.Json

open SourceAtlas.Text (isBlank)

/-- Whether a character has no meaning of its own outside of strings and comments. -/
def IsOrdinary (c : Char) : Prop := c ≠ '"' ∧ c ≠ '/' ∧ c ≠ '\x7d' ∧ c ≠ ']'

theorem copyCode_code_cons {c : Char} (ordinary : IsOrdinary c) (copied rest : List Char) :
    copyCode .code copied (c :: rest) = copyCode .code (c :: copied) rest := by
  obtain ⟨noQuote, noSlash, noBrace, noBracket⟩ := ordinary
  rw [copyCode.eq_def]
  simp [noSlash, noBrace, noBracket]

theorem copyCode_code_append {chars : List Char} (ordinary : ∀ c ∈ chars, IsOrdinary c)
    (copied rest : List Char) :
    copyCode .code copied (chars ++ rest) = copyCode .code (chars.reverse ++ copied) rest := by
  induction chars generalizing copied with
  | nil => rfl
  | cons c chars ih =>
      rw [List.cons_append, copyCode_code_cons (ordinary c List.mem_cons_self),
        ih fun d later => ordinary d (List.mem_cons_of_mem _ later)]
      simp

theorem copyCode_code_closing {c : Char} (closing : c = '\x7d' ∨ c = ']')
    (copied rest : List Char) :
    copyCode .code copied (c :: rest) = copyCode .code (c :: dropComma copied) rest := by
  rcases closing with rfl | rfl <;> simp [copyCode]

theorem copyCode_string_cons {c : Char} (noQuote : c ≠ '"') (noEscape : c ≠ '\\')
    (copied rest : List Char) :
    copyCode .string copied (c :: rest) = copyCode .string (c :: copied) rest := by
  rw [copyCode.eq_def]
  simp [noEscape]

theorem copyCode_line_cons {c : Char} (inLine : c ≠ '\n') (copied rest : List Char) :
    copyCode .line copied (c :: rest) = copyCode .line copied rest := by
  rw [copyCode.eq_def]
  simp

theorem copyCode_block_cons {c : Char} {rest : List Char}
    (inside : ¬ ['*', '/'] <+: c :: rest) (copied : List Char) :
    copyCode .block copied (c :: rest) = copyCode .block copied rest := by
  rw [copyCode.eq_def]
  split <;> simp_all

theorem copyCode_line {body : List Char} (oneLine : '\n' ∉ body) (copied rest : List Char) :
    copyCode .line copied (body ++ rest) = copyCode .line copied rest := by
  induction body with
  | nil => rfl
  | cons c body ih =>
      rw [List.mem_cons, not_or] at oneLine
      rw [List.cons_append, copyCode_line_cons (Ne.symm oneLine.1), ih oneLine.2]

theorem copyCode_block {body : List Char} (closedOnce : ¬ ['*', '/'] <:+: body)
    (copied rest : List Char) :
    copyCode .block copied (body ++ '*' :: '/' :: rest) = copyCode .code copied rest := by
  induction body with
  | nil => rfl
  | cons c body ih =>
      have inside : ¬ ['*', '/'] <+: c :: (body ++ '*' :: '/' :: rest) := by
        -- the mark cannot begin in the comment and end in the mark that closes it
        cases body with
        | nil => simp
        | cons d body =>
            intro marked
            rw [List.cons_append, List.cons_prefix_cons, List.cons_prefix_cons] at marked
            obtain ⟨rfl, rfl, -⟩ := marked
            exact closedOnce ⟨[], body, rfl⟩
      rw [List.cons_append, copyCode_block_cons inside,
        ih fun later => closedOnce (List.infix_cons later)]

theorem hexValue?_quote : Number.hexValue? '"' = none ∧ Number.hexValue? '\\' = none := by decide

theorem ne_of_hex4Value? {digits : List Char} {n : Nat} (four : digits.length = 4)
    (spelled : hex4Value? digits = some n) : ∀ c ∈ digits, c ≠ '"' ∧ c ≠ '\\' := by
  obtain ⟨a, b, c, d, rfl⟩ : ∃ a b c d, digits = [a, b, c, d] := by
    match digits, four with
    | [a, b, c, d], _ => exact ⟨a, b, c, d, rfl⟩
  have visible : ∀ x, (Number.hexValue? x).isSome → x ≠ '"' ∧ x ≠ '\\' := by
    rintro x known
    constructor <;> rintro rfl <;> simp [hexValue?_quote] at known
  simp only [hex4Value?, Option.bind_eq_bind, Option.bind_eq_some_iff] at spelled
  obtain ⟨_, first, _, second, _, third, _, fourth, _⟩ := spelled
  intro x listed
  simp only [List.mem_cons, List.not_mem_nil, or_false] at listed
  rcases listed with rfl | rfl | rfl | rfl <;> apply visible <;> simp [*]

theorem copyCode_string_append {chars : List Char} (inside : ∀ c ∈ chars, c ≠ '"' ∧ c ≠ '\\')
    (copied rest : List Char) :
    copyCode .string copied (chars ++ rest) = copyCode .string (chars.reverse ++ copied) rest := by
  induction chars generalizing copied with
  | nil => rfl
  | cons c chars ih =>
      have here := inside c List.mem_cons_self
      rw [List.cons_append, copyCode_string_cons here.1 here.2,
        ih fun d later => inside d (List.mem_cons_of_mem _ later)]
      simp

theorem copyCode_item (item : StringItem) (copied rest : List Char) :
    copyCode .string copied (item.text ++ rest) =
      copyCode .string (item.text.reverse ++ copied) rest := by
  cases item with
  | char c shown noQuote noEscape => exact copyCode_string_cons noQuote noEscape copied rest
  | escape letter c known => simp [StringItem.text, copyCode]
  | unit digits n four spelled =>
      rw [StringItem.text, List.cons_append, List.cons_append, copyCode,
        copyCode_string_append (ne_of_hex4Value? four spelled)]
      simp

theorem copyCode_items (items : List StringItem) (copied rest : List Char) :
    copyCode .string copied (itemsText items ++ rest) =
      copyCode .string ((itemsText items).reverse ++ copied) rest := by
  induction items generalizing copied with
  | nil => rfl
  | cons item items ih =>
      have whole : itemsText (item :: items) = item.text ++ itemsText items := rfl
      rw [whole, List.append_assoc, copyCode_item, ih, List.reverse_append, List.append_assoc]

theorem copyCode_stringText (items : List StringItem) (copied rest : List Char) :
    copyCode .code copied (stringText items ++ rest) =
      copyCode .code ((stringText items).reverse ++ copied) rest := by
  rw [stringText, List.cons_append, List.cons_append, List.append_assoc, copyCode, copyCode_items]
  simp [copyCode]

theorem isOrdinary_of_isDigit {c : Char} (digit : c.isDigit = true) : IsOrdinary c := by
  refine ⟨?_, ?_, ?_, ?_⟩ <;> rintro rfl <;> exact absurd digit (by decide)

theorem Exponent.isOrdinary_text (e : Exponent) : ∀ c ∈ e.text, IsOrdinary c := by
  intro c listed
  rw [Exponent.text, List.mem_cons, List.mem_append] at listed
  rcases listed with rfl | sign | digit
  · cases e.capital <;> simp [IsOrdinary]
  · split at sign <;> simp_all [IsOrdinary]
  · exact isOrdinary_of_isDigit (e.digits.digits c digit)

theorem Numeral.isOrdinary_text (n : Numeral) : ∀ c ∈ n.text, IsOrdinary c := by
  intro c listed
  rw [Numeral.text, List.mem_append, List.mem_append, List.mem_append] at listed
  rcases listed with ((sign | whole) | fraction) | exponent
  · split at sign <;> simp_all [IsOrdinary]
  · exact isOrdinary_of_isDigit (n.whole.digits c whole)
  · cases given : n.fraction with
    | none => simp [given] at fraction
    | some d =>
        simp only [given, Option.map_some, Option.getD_some, List.mem_cons] at fraction
        rcases fraction with rfl | digit
        · simp [IsOrdinary]
        · exact isOrdinary_of_isDigit (d.digits c digit)
  · cases given : n.exponent with
    | none => simp [given] at exponent
    | some e => exact e.isOrdinary_text c (by simpa [given] using exponent)

theorem copyCode_atom (a : Atom) (copied rest : List Char) :
    copyCode .code copied (a.text ++ rest) = copyCode .code (a.text.reverse ++ copied) rest := by
  cases a with
  | null => exact copyCode_code_append (by simp [Atom.text, IsOrdinary]) copied rest
  | bool b => cases b <;> exact copyCode_code_append (by simp [Atom.text, IsOrdinary]) copied rest
  | number n => exact copyCode_code_append n.isOrdinary_text copied rest
  | string items => exact copyCode_stringText items copied rest

/-- Whether the last visible character of a text, given backwards, is not a comma. -/
def EndsInValue (backwards : List Char) : Prop := (backwards.dropWhile isBlank).head? ≠ some ','

theorem dropComma_of_endsInValue {backwards : List Char} (ended : EndsInValue backwards) :
    dropComma backwards = backwards := by
  unfold dropComma
  split
  · rename_i rest found
    simp [EndsInValue, found] at ended
  · rfl

theorem dropComma_append_comma {blanks : List Char} (blank : ∀ c ∈ blanks, isBlank c = true)
    (before : List Char) : dropComma (blanks ++ ',' :: before) = blanks ++ before := by
  have taken : (blanks ++ ',' :: before).takeWhile isBlank = blanks := by
    rw [List.takeWhile_append_of_pos blank, List.takeWhile_cons_of_neg (by decide), List.append_nil]
  have left : (blanks ++ ',' :: before).dropWhile isBlank = ',' :: before := by
    rw [List.dropWhile_append_of_pos blank, List.dropWhile_cons_of_neg (by decide)]
  simp [dropComma, taken, left]

theorem EndsInValue.append_blanks {blanks before : List Char}
    (blank : ∀ c ∈ blanks, isBlank c = true) (ended : EndsInValue before) :
    EndsInValue (blanks ++ before) := by
  rwa [EndsInValue, List.dropWhile_append_of_pos blank]

theorem endsInValue_cons {c : Char} (solid : isBlank c = false) (noComma : c ≠ ',')
    (before : List Char) : EndsInValue (c :: before) := by
  rw [EndsInValue, List.dropWhile_cons_of_neg (by simp [solid])]
  simp [noComma]

/-- Whether pieces are copied, wherever they stand, as what they leave behind in plain JSON. -/
def Copies (pieces : List Piece) : Prop :=
  ∀ copied rest, copyCode .code copied (textOf pieces ++ rest) =
    copyCode .code ((plainOf pieces).reverse ++ copied) rest

theorem copies_nil : Copies [] := fun _ _ => rfl

theorem Copies.append {first second : List Piece} (one : Copies first) (two : Copies second) :
    Copies (first ++ second) := by
  intro copied rest
  rw [textOf_append, List.append_assoc, one, two, plainOf_append, List.reverse_append,
    List.append_assoc]

theorem copies_kept_iff {chars : List Char} :
    Copies [.kept chars] ↔ ∀ copied rest, copyCode .code copied (chars ++ rest) =
      copyCode .code (chars.reverse ++ copied) rest := by
  simp [Copies, Piece.text, Piece.plain]

theorem copies_kept {chars : List Char} (ordinary : ∀ c ∈ chars, IsOrdinary c) :
    Copies [.kept chars] :=
  copies_kept_iff.2 (copyCode_code_append ordinary)

theorem isBlank_of_isSpace {c : Char} (white : isSpace c = true) : isBlank c = true := by
  simp only [isSpace, Bool.or_eq_true, beq_iff_eq] at white
  rcases white with ((rfl | rfl) | rfl) | rfl <;> decide

theorem isOrdinary_of_isSpace {c : Char} (white : isSpace c = true) : IsOrdinary c := by
  refine ⟨?_, ?_, ?_, ?_⟩ <;> rintro rfl <;> exact absurd white (by decide)

theorem Filler.copies (filler : Filler) : Copies filler.pieces := by
  cases filler with
  | space c white => exact copies_kept (by simpa using isOrdinary_of_isSpace white)
  | line body oneLine =>
      intro copied rest
      simp [Filler.pieces, Piece.text, Piece.plain, copyCode, copyCode_line oneLine]
  | block body closedOnce =>
      intro copied rest
      simp [Filler.pieces, Piece.text, Piece.plain, copyCode, copyCode_block closedOnce]

theorem copies_gapPieces (gap : List Filler) : Copies (gapPieces gap) := by
  induction gap with
  | nil => exact copies_nil
  | cons filler rest ih => exact filler.copies.append ih

theorem isBlank_of_mem_reverse_gap (gap : List Filler) :
    ∀ c ∈ (plainOf (gapPieces gap)).reverse, isBlank c = true := fun c listed =>
  isBlank_of_isSpace (isSpace_of_mem_plainOf_gapPieces gap c (List.mem_reverse.1 listed))

/-! ## Values -/

/-- Whether a text ends in a visible character that is not a comma. -/
def EndsSolid (text : List Char) : Prop :=
  ∃ front c, text = front ++ [c] ∧ isBlank c = false ∧ c ≠ ','

theorem EndsSolid.endsInValue {text : List Char} (solid : EndsSolid text) (before : List Char) :
    EndsInValue (text.reverse ++ before) := by
  obtain ⟨front, c, rfl, visible, noComma⟩ := solid
  rw [List.reverse_append]
  exact endsInValue_cons visible noComma _

theorem EndsSolid.append {text : List Char} (solid : EndsSolid text) (front : List Char) :
    EndsSolid (front ++ text) := by
  obtain ⟨middle, c, rfl, visible, noComma⟩ := solid
  exact ⟨front ++ middle, c, (List.append_assoc _ _ _).symm, visible, noComma⟩

theorem endsSolid_concat (front : List Char) {c : Char} (visible : isBlank c = false)
    (noComma : c ≠ ',') : EndsSolid (front ++ [c]) :=
  ⟨front, c, rfl, visible, noComma⟩

theorem not_isBlank_of_isDigit {c : Char} (digit : c.isDigit = true) : isBlank c = false := by
  rw [Char.isDigit, Bool.and_eq_true, decide_eq_true_eq, decide_eq_true_eq] at digit
  have low : 48 ≤ c.toNat := UInt32.le_iff_toNat_le.1 digit.1
  have high : c.toNat ≤ 57 := UInt32.le_iff_toNat_le.1 digit.2
  simp only [isBlank, Bool.or_eq_false_iff, Bool.and_eq_false_iff, decide_eq_false_iff_not,
    beq_eq_false_iff_ne]
  omega

theorem Digits.endsSolid (d : Digits) : EndsSolid d.chars := by
  have digit := d.digits _ (List.getLast_mem d.nonempty)
  refine ⟨d.chars.dropLast, d.chars.getLast d.nonempty, ?_, not_isBlank_of_isDigit digit, ?_⟩
  · exact (List.dropLast_append_getLast d.nonempty).symm
  · intro comma
    rw [comma] at digit
    exact absurd digit (by decide)

theorem Numeral.endsSolid (n : Numeral) : EndsSolid n.text := by
  rw [Numeral.text]
  cases n.exponent with
  | some e => exact ((e.digits.endsSolid.append _).append [_]).append _
  | none =>
      rw [Option.map_none, Option.getD_none, List.append_nil]
      cases n.fraction with
      | some d => exact (d.endsSolid.append ['.']).append _
      | none =>
          rw [Option.map_none, Option.getD_none, List.append_nil]
          exact n.whole.endsSolid.append _

theorem Atom.endsSolid (a : Atom) : EndsSolid a.text := by
  cases a with
  | null => exact endsSolid_concat ['n', 'u', 'l'] (by decide) (by decide)
  | bool b =>
      cases b with
      | false => exact endsSolid_concat ['f', 'a', 'l', 's'] (by decide) (by decide)
      | true => exact endsSolid_concat ['t', 'r', 'u'] (by decide) (by decide)
  | number n => exact n.endsSolid
  | string items => exact endsSolid_concat ('"' :: itemsText items) (by decide) (by decide)

theorem Written.endsSolid (w : Written) : EndsSolid (plainOf w.pieces) := by
  cases w <;> simp only [Written.pieces, plainOf_cons, plainOf_append, plainOf_nil, List.append_nil]
  case atom a => exact a.endsSolid
  all_goals exact endsSolid_concat _ (by decide) (by decide)

/-- Whether pieces, up to a closing bracket, are copied as what they leave behind in plain JSON. -/
def Closes (close : Char) (pieces : List Piece) : Prop :=
  ∀ copied rest, copyCode .code copied (textOf pieces ++ close :: rest) =
    copyCode .code (close :: ((plainOf pieces).reverse ++ copied)) rest

theorem Closes.copies {close : Char} {pieces : List Piece} (closes : Closes close pieces) :
    Copies (pieces ++ [.kept [close]]) := by
  intro copied rest
  simpa [Piece.text, Piece.plain] using closes copied rest

theorem Copies.closes {close : Char} {first second : List Piece} (one : Copies first)
    (two : Closes close second) : Closes close (first ++ second) := by
  intro copied rest
  rw [textOf_append, List.append_assoc, one, two, plainOf_append, List.reverse_append,
    List.append_assoc]

/-- The end of an array or an object: with the closing bracket the extra comma behind the last value
goes, and nothing else does. -/
theorem Copies.closes_extra {close : Char} (closing : close = '\x7d' ∨ close = ']')
    {value : List Piece} (copies : Copies value) (solid : EndsSolid (plainOf value))
    (after : List Filler) (extra : Option (List Filler)) :
    Closes close (value ++ gapPieces after ++ extraPieces extra) := by
  intro copied rest
  have ended := (solid.endsInValue copied).append_blanks (isBlank_of_mem_reverse_gap after)
  rw [textOf_append, List.append_assoc, copies.append (copies_gapPieces after)]
  cases extra with
  | none =>
      have gone : textOf (extraPieces none) ++ close :: rest = close :: rest := rfl
      rw [gone, copyCode_code_closing closing, plainOf_append value, List.reverse_append,
        List.append_assoc, dropComma_of_endsInValue ended]
      simp
  | some gap =>
      have comma : textOf (extraPieces (some gap)) ++ close :: rest =
          ',' :: (textOf (gapPieces gap) ++ close :: rest) := rfl
      rw [comma, copyCode_code_cons (by simp [IsOrdinary]), copies_gapPieces,
        copyCode_code_closing closing, dropComma_append_comma (isBlank_of_mem_reverse_gap gap)]
      simp [extraPieces, Piece.plain]

theorem copies_keyPieces (before : List Filler) (key : List StringItem)
    (afterKey beforeValue : List Filler) : Copies (keyPieces before key afterKey beforeValue) := by
  have keyText : Copies [.kept (stringText key)] := copies_kept_iff.2 (copyCode_stringText key)
  have colon : Copies [.kept [':']] := copies_kept (by simp [IsOrdinary])
  exact ((copies_gapPieces before).append
    (keyText.append (copies_gapPieces afterKey))).append
      (colon.append (copies_gapPieces beforeValue))

theorem copies_comma : Copies [.kept [',']] := copies_kept (by simp [IsOrdinary])

theorem copies_opening {c : Char} (opening : c = '[' ∨ c = '\x7b') : Copies [.kept [c]] := by
  refine copies_kept ?_
  rcases opening with rfl | rfl <;> simp [IsOrdinary]

mutual

theorem Written.copies : (w : Written) → Copies w.pieces
  | .atom a => copies_kept_iff.2 (copyCode_atom a)
  | .emptyArray inside => by
      have closes := (copies_opening (.inl rfl)).closes_extra (.inr rfl)
        (endsSolid_concat [] (by decide) (by decide)) inside none
      exact Closes.copies (by simpa using closes)
  | .array items => by
      exact ((copies_opening (.inl rfl)).closes items.closes).copies
  | .emptyObject inside => by
      have closes := (copies_opening (.inr rfl)).closes_extra (.inl rfl)
        (endsSolid_concat [] (by decide) (by decide)) inside none
      exact Closes.copies (by simpa using closes)
  | .object members => by
      exact ((copies_opening (.inr rfl)).closes members.closes).copies

theorem WrittenItems.closes : (items : WrittenItems) → Closes ']' items.pieces
  | .last before item after extra =>
      ((copies_gapPieces before).append item.copies).closes_extra (.inr rfl)
        (by rw [plainOf_append]; exact item.endsSolid.append _) after extra
  | .more before item after rest =>
      (((copies_gapPieces before).append item.copies).append (copies_gapPieces after)).closes
        (copies_comma.closes rest.closes)

theorem WrittenMembers.closes : (members : WrittenMembers) → Closes '\x7d' members.pieces
  | .last before key afterKey beforeValue value after extra =>
      ((copies_keyPieces before key afterKey beforeValue).append value.copies).closes_extra
        (.inl rfl) (by rw [plainOf_append]; exact value.endsSolid.append _) after extra
  | .more before key afterKey beforeValue value after rest =>
      (((copies_keyPieces before key afterKey beforeValue).append value.copies).append
        (copies_gapPieces after)).closes (copies_comma.closes rest.closes)

end

theorem Copies.stripComments_ending {pieces : List Piece} (copies : Copies pieces)
    (ending : Option { comment : List Char // '\n' ∉ comment }) :
    stripComments (textOf (pieces ++ endingPieces ending)) =
      plainOf (pieces ++ endingPieces ending) := by
  rw [stripComments, textOf_append, copies]
  cases ending with
  | none => simp [endingPieces, copyCode]
  | some comment =>
      have skipped := copyCode_line comment.property ((plainOf pieces).reverse ++ []) []
      rw [List.append_nil comment.val] at skipped
      have begun : textOf (endingPieces (some comment)) = '/' :: '/' :: comment.val :=
        List.append_nil _
      rw [begun, copyCode, skipped]
      simp [endingPieces, copyCode, Piece.plain]

/-- Exactly the comments and the extra commas of a document are taken out of its text. -/
theorem stripComments_text (d : Document) : stripComments d.text = d.plain :=
  (((copies_gapPieces d.before).append d.body.copies).append
    (copies_gapPieces d.after)).stripComments_ending d.ending

end SourceAtlas.Json
