/-
# Plain documents are read as their value

The text that a document leaves behind without its comments and extra commas is read as the value of
the document: the reader goes over the white space, reads each token as what it stands for and stops
at the closing bracket that ends the array or the object it is in.
-/

import SourceAtlas.Proofs.Json.Stripping
import SourceAtlas.Proofs.Json.Tokens

namespace SourceAtlas.Json

/-- Whether a number that is written as a whole number has no more digits than are read. -/
def Numeral.Readable (n : Numeral) : Prop :=
  n.fraction = none → n.exponent = none → n.whole.chars.length ≤ Number.wholeDigitLimit

/-- Whether a token is no whole number that is too long. -/
def Atom.Readable : Atom → Prop
  | .number n => n.Readable
  | _ => True

mutual

/-- Whether no whole number in a value is too long. -/
def Written.Readable : Written → Prop
  | .atom a => a.Readable
  | .emptyArray _ => True
  | .array items => items.Readable
  | .emptyObject _ => True
  | .object members => members.Readable

def WrittenItems.Readable : WrittenItems → Prop
  | .last _ item _ _ => item.Readable
  | .more _ item _ rest => item.Readable ∧ rest.Readable

def WrittenMembers.Readable : WrittenMembers → Prop
  | .last _ _ _ _ value _ _ => value.Readable
  | .more _ _ _ _ value _ rest => value.Readable ∧ rest.Readable

end

theorem Rest.skipSpace_append {spaces text : List Char} (white : ∀ c ∈ spaces, isSpace c = true)
    (stop : ∀ c, text.head? = some c → isSpace c = false) (position : Nat) :
    Rest.skipSpace ⟨spaces ++ text, position⟩ = ⟨text, position + spaces.length⟩ := by
  simp [Rest.skipSpace, Rest.drop, takeWhile_append_of_stop white stop]

theorem Rest.skipSpace_gap (gap : List Filler) {c : Char} (solid : isSpace c = false)
    (rest : List Char) (position : Nat) :
    ∃ behind, Rest.skipSpace ⟨plainOf (gapPieces gap) ++ c :: rest, position⟩ =
      ⟨c :: rest, behind⟩ := by
  refine ⟨_, Rest.skipSpace_append (isSpace_of_mem_plainOf_gapPieces gap) ?_ position⟩
  rintro _ ⟨⟩
  exact solid

theorem Rest.skipSpace_gap_end (gap : List Filler) (position : Nat) :
    ∃ behind, Rest.skipSpace ⟨plainOf (gapPieces gap), position⟩ = ⟨[], behind⟩ := by
  refine ⟨_, Eq.trans ?_
    (Rest.skipSpace_append (isSpace_of_mem_plainOf_gapPieces gap) (by simp) position)⟩
  rw [List.append_nil]

theorem delimits_gap (gap : List Filler) {c : Char} (delimiter : isDelimiter c = true)
    (rest : List Char) : Delimits (plainOf (gapPieces gap) ++ c :: rest) := by
  intro d begun
  cases blank : plainOf (gapPieces gap) with
  | nil =>
      obtain rfl : c = d := by simpa [blank] using begun
      exact delimiter
  | cons e others =>
      obtain rfl : e = d := by simpa [blank] using begun
      have white := isSpace_of_mem_plainOf_gapPieces gap e (blank ▸ List.mem_cons_self)
      simp [isDelimiter, white]

/-- No word is the beginning of a number. -/
theorem Numeral.not_isPrefixOf (n : Numeral) (rest : List Char) :
    ∀ w ∈ wordValues, w.1.isPrefixOf (n.text ++ rest) = false := by
  obtain ⟨c, others, begun, digit⟩ := n.whole.head_isDigit
  have noLetter : 'n' ≠ c ∧ 't' ≠ c ∧ 'f' ≠ c ∧ 'N' ≠ c ∧ 'I' ≠ c ∧ '-' ≠ c := by
    refine ⟨?_, ?_, ?_, ?_, ?_, ?_⟩ <;> rintro rfl <;> exact absurd digit (by decide)
  rw [n.text_append, begun]
  cases n.negative <;> simp [wordValues, List.isPrefixOf, noLetter]

theorem readPlain_number (n : Numeral) (readable : n.Readable) (position : Nat) {rest : List Char}
    (delimits : Delimits rest) :
    readPlain ⟨n.text ++ rest, position⟩ =
      .ok (.number n.value, ⟨rest, position + n.text.length⟩) := by
  have noWord : wordValues.find? (fun w => w.1.isPrefixOf (n.text ++ rest)) = none := by
    rw [List.find?_eq_none]
    intro w listed
    simp [n.not_isPrefixOf rest w listed]
  rw [readPlain, noWord]
  exact readNumber_text n readable position delimits

theorem Numeral.begins (n : Numeral) :
    ∃ c others, n.text = c :: others ∧ (c = '-' ∨ c.isDigit = true) := by
  obtain ⟨c, others, begun, digit⟩ := n.whole.head_isDigit
  have whole := n.text_append []
  rw [List.append_nil, begun] at whole
  cases sign : n.negative with
  | true => exact ⟨'-', _, by rw [whole, sign]; rfl, .inl rfl⟩
  | false => exact ⟨c, _, by rw [whole, sign]; rfl, .inr digit⟩

theorem readValue_eq_readPlain {c : Char} (other : c ≠ '"' ∧ c ≠ '\x7b' ∧ c ≠ '[')
    (fuel position : Nat) (rest : List Char) :
    readValue (fuel + 1) ⟨c :: rest, position⟩ = readPlain ⟨c :: rest, position⟩ := by
  rw [readValue]
  split <;> simp_all

theorem stringText_append (items : List StringItem) (rest : List Char) :
    stringText items ++ rest = '"' :: (itemsText items ++ '"' :: rest) := by
  simp [stringText]

theorem readValue_atom (a : Atom) (readable : a.Readable) (fuel position : Nat) {rest : List Char}
    (delimits : Delimits rest) :
    ∃ behind, readValue (fuel + 1) ⟨a.text ++ rest, position⟩ = .ok (a.value, ⟨rest, behind⟩) := by
  cases a with
  | null => exact ⟨_, rfl⟩
  | bool b => cases b <;> exact ⟨_, rfl⟩
  | number n =>
      refine ⟨position + n.text.length, ?_⟩
      have whole := readPlain_number n readable position delimits
      obtain ⟨c, others, begun, first⟩ := n.begins
      have other : c ≠ '"' ∧ c ≠ '\x7b' ∧ c ≠ '[' := by
        refine ⟨?_, ?_, ?_⟩ <;> rintro rfl <;> exact absurd first (by decide)
      rw [Atom.text, Atom.value, ← whole, begun, List.cons_append, readValue_eq_readPlain other]
  | string items =>
      obtain ⟨behind, read⟩ := readString_stringText items position (position + 1) rest
      refine ⟨behind, ?_⟩
      rw [Atom.text, stringText_append, readValue]
      simp only [read]
      rfl

/-! ## Values -/

/-- Whether a text begins with a character with which a value can begin. -/
def BeginsValue (text : List Char) : Prop :=
  ∃ c others, text = c :: others ∧ isSpace c = false ∧ c ≠ ']' ∧ c ≠ '\uFEFF'

theorem Atom.begins (a : Atom) : BeginsValue a.text := by
  cases a with
  | null => exact ⟨'n', _, rfl, by decide⟩
  | bool b =>
      cases b with
      | false => exact ⟨'f', _, rfl, by decide⟩
      | true => exact ⟨'t', _, rfl, by decide⟩
  | number n =>
      obtain ⟨c, others, begun, first⟩ := n.begins
      have solid : isSpace c = false := by
        rcases first with rfl | digit
        · decide
        · exact Bool.eq_false_iff.2 fun white =>
            Bool.eq_false_iff.1 (not_isBlank_of_isDigit digit) (isBlank_of_isSpace white)
      refine ⟨c, others, begun, solid, ?_, ?_⟩ <;> rintro rfl <;> exact absurd first (by decide)
  | string items => exact ⟨'"', _, rfl, by decide⟩

theorem Written.begins (w : Written) : BeginsValue (plainOf w.pieces) := by
  cases w with
  | atom a =>
      have text : plainOf (Written.atom a).pieces = a.text := List.append_nil _
      rw [text]
      exact a.begins
  | emptyArray inside => exact ⟨'[', _, rfl, by decide⟩
  | array items => exact ⟨'[', _, rfl, by decide⟩
  | emptyObject inside => exact ⟨'\x7b', _, rfl, by decide⟩
  | object members => exact ⟨'\x7b', _, rfl, by decide⟩

/-- The first item behind white space. -/
theorem Written.skipSpace_before (before : List Filler) (w : Written) (rest : List Char)
    (position : Nat) :
    ∃ behind, Rest.skipSpace ⟨plainOf (gapPieces before) ++ (plainOf w.pieces ++ rest), position⟩ =
      ⟨plainOf w.pieces ++ rest, behind⟩ := by
  obtain ⟨c, others, begun, solid, -⟩ := w.begins
  rw [begun]
  exact Rest.skipSpace_gap before solid _ position

theorem WrittenItems.skipSpace_begins (items : WrittenItems) (rest : List Char) (position : Nat) :
    ∀ others, (Rest.skipSpace ⟨plainOf items.pieces ++ rest, position⟩).chars ≠ ']' :: others := by
  intro others closed
  obtain ⟨before, item, more, split⟩ : ∃ before item more, plainOf items.pieces ++ rest =
      plainOf (gapPieces before) ++ (plainOf (Written.pieces item) ++ more) := by
    cases items with
    | last before item after extra => exact ⟨before, item, _, by simp [WrittenItems.pieces]; rfl⟩
    | more before item after others => exact ⟨before, item, _, by simp [WrittenItems.pieces]; rfl⟩
  obtain ⟨behind, skipped⟩ := item.skipSpace_before before more position
  obtain ⟨c, others, begun, -, noBracket, -⟩ := item.begins
  rw [split, skipped, begun] at closed
  exact noBracket (List.cons.inj closed).1

theorem skipSpace_string (before : List Filler) (items : List StringItem) (rest : List Char)
    (position : Nat) :
    ∃ behind, Rest.skipSpace ⟨plainOf (gapPieces before) ++ (stringText items ++ rest), position⟩ =
      ⟨stringText items ++ rest, behind⟩ := by
  rw [stringText_append]
  exact Rest.skipSpace_gap before rfl _ position

theorem WrittenMembers.skipSpace_begins (members : WrittenMembers) (rest : List Char)
    (position : Nat) : ∀ others,
      (Rest.skipSpace ⟨plainOf members.pieces ++ rest, position⟩).chars ≠ '\x7d' :: others := by
  intro others closed
  obtain ⟨before, key, more, split⟩ : ∃ before key more, plainOf members.pieces ++ rest =
      plainOf (gapPieces before) ++ (stringText key ++ more) := by
    cases members with
    | last before key afterKey beforeValue value after extra =>
        exact ⟨before, key, _, by simp [WrittenMembers.pieces, keyPieces, Piece.plain]; rfl⟩
    | more before key afterKey beforeValue value after others =>
        exact ⟨before, key, _, by simp [WrittenMembers.pieces, keyPieces, Piece.plain]; rfl⟩
  obtain ⟨behind, skipped⟩ := skipSpace_string before key more position
  rw [split, skipped, stringText_append] at closed
  exact absurd (List.cons.inj closed).1 (by decide)

theorem readValue_array {text : List Char} {position : Nat}
    (filled : ∀ others, (Rest.skipSpace ⟨text, position + 1⟩).chars ≠ ']' :: others) (fuel : Nat) :
    readValue (fuel + 1) ⟨'[' :: text, position⟩ =
      readItems fuel (Rest.skipSpace ⟨text, position + 1⟩) [] := by
  simp only [readValue]

theorem readValue_object {text : List Char} {position : Nat}
    (filled : ∀ others, (Rest.skipSpace ⟨text, position + 1⟩).chars ≠ '\x7d' :: others)
    (fuel : Nat) :
    readValue (fuel + 1) ⟨'\x7b' :: text, position⟩ =
      readMembers fuel (Rest.skipSpace ⟨text, position + 1⟩) [] := by
  simp only [readValue]

/-- One item and the character behind it. -/
theorem readItems_step {fuel : Nat} {r : Rest} {item : Json} {after : List Filler} {c : Char}
    {rest : List Char} {position : Nat}
    (read : readValue fuel r = .ok (item, ⟨plainOf (gapPieces after) ++ c :: rest, position⟩))
    (solid : isSpace c = false) (done : List Json) :
    ∃ position, readItems (fuel + 1) r done =
      match c :: rest with
      | ']' :: rest => .ok (.array (item :: done).reverse, ⟨rest, position + 1⟩)
      | ',' :: rest => readItems fuel (Rest.skipSpace ⟨rest, position + 1⟩) (item :: done)
      | _ => refuse .expectingComma position := by
  obtain ⟨behind, skipped⟩ := Rest.skipSpace_gap after solid rest position
  refine ⟨behind, ?_⟩
  rw [readItems, read]
  simp only [bind, Except.bind, skipped]
  rfl

/-- One member and the character behind it. -/
theorem readMembers_step {fuel : Nat} (key : List StringItem) (afterKey beforeValue : List Filler)
    {value : Written} {after : List Filler} {c : Char} {rest : List Char}
    (read : ∀ position, ∃ behind,
      readValue fuel ⟨plainOf value.pieces ++ (plainOf (gapPieces after) ++ c :: rest), position⟩ =
        .ok (value.value, ⟨plainOf (gapPieces after) ++ c :: rest, behind⟩))
    (solid : isSpace c = false) (position : Nat) (done : List (String × Json)) :
    ∃ behind, readMembers (fuel + 1)
        ⟨stringText key ++ (plainOf (gapPieces afterKey) ++ ':' ::
          (plainOf (gapPieces beforeValue) ++
            (plainOf value.pieces ++ (plainOf (gapPieces after) ++ c :: rest)))), position⟩ done =
      let members := (String.ofList (meaning key), value.value) :: done
      match c :: rest with
      | '\x7d' :: rest => .ok (.object (collectMembers members.reverse), ⟨rest, behind + 1⟩)
      | ',' :: rest => readMembers fuel (Rest.skipSpace ⟨rest, behind + 1⟩) members
      | _ => refuse .expectingComma behind := by
  obtain ⟨keyEnd, keyRead⟩ := readString_stringText key position (position + 1)
    (plainOf (gapPieces afterKey) ++ ':' :: (plainOf (gapPieces beforeValue) ++
      (plainOf value.pieces ++ (plainOf (gapPieces after) ++ c :: rest))))
  obtain ⟨colon, colonFound⟩ := Rest.skipSpace_gap afterKey (c := ':') rfl
    (plainOf (gapPieces beforeValue) ++
      (plainOf value.pieces ++ (plainOf (gapPieces after) ++ c :: rest))) keyEnd
  obtain ⟨start, valueFound⟩ := value.skipSpace_before beforeValue
    (plainOf (gapPieces after) ++ c :: rest) (colon + 1)
  obtain ⟨valueEnd, valueRead⟩ := read start
  obtain ⟨behind, ended⟩ := Rest.skipSpace_gap after solid rest valueEnd
  refine ⟨behind, ?_⟩
  rw [stringText_append, readMembers]
  simp only [keyRead, bind, Except.bind, colonFound, valueFound, valueRead, ended]
  rfl

mutual

theorem Written.readValue_pieces : (w : Written) → w.Readable → ∀ fuel,
    (plainOf w.pieces).length ≤ fuel → ∀ position rest, Delimits rest → ∃ behind,
      readValue fuel ⟨plainOf w.pieces ++ rest, position⟩ = .ok (w.value, ⟨rest, behind⟩)
  | .atom a, readable, fuel, enough, position, rest, delimits => by
      obtain ⟨c, others, begun, -⟩ := a.begins
      have text : plainOf (Written.atom a).pieces = a.text := List.append_nil _
      rw [text] at enough ⊢
      obtain ⟨fuel, rfl⟩ := Nat.exists_eq_add_one_of_ne_zero (n := fuel) (by
        rw [begun, List.length_cons] at enough
        omega)
      exact readValue_atom a readable fuel position delimits
  | .emptyArray inside, _, fuel + 1, enough, position, rest, _ => by
      obtain ⟨behind, skipped⟩ := Rest.skipSpace_gap inside (c := ']') rfl rest (position + 1)
      have text : plainOf (Written.emptyArray inside).pieces ++ rest =
          '[' :: (plainOf (gapPieces inside) ++ ']' :: rest) := by
        simp [Written.pieces, Piece.plain]
      refine ⟨behind + 1, ?_⟩
      rw [text, readValue]
      simp only [skipped]
      rfl
  | .array items, readable, fuel + 1, enough, position, rest, _ => by
      have text : plainOf (Written.array items).pieces ++ rest =
          '[' :: (plainOf items.pieces ++ ']' :: rest) := by
        simp [Written.pieces, Piece.plain]
      have within : (plainOf items.pieces).length < fuel := by
        simp [Written.pieces, Piece.plain] at enough
        omega
      obtain ⟨behind, read⟩ := items.readItems_pieces readable fuel within (position + 1) rest []
      refine ⟨behind, ?_⟩
      rw [text, readValue_array (items.skipSpace_begins _ _)]
      exact read
  | .emptyObject inside, _, fuel + 1, enough, position, rest, _ => by
      obtain ⟨behind, skipped⟩ := Rest.skipSpace_gap inside (c := '\x7d') rfl rest (position + 1)
      have text : plainOf (Written.emptyObject inside).pieces ++ rest =
          '\x7b' :: (plainOf (gapPieces inside) ++ '\x7d' :: rest) := by
        simp [Written.pieces, Piece.plain]
      refine ⟨behind + 1, ?_⟩
      rw [text, readValue]
      simp only [skipped]
      rfl
  | .object members, readable, fuel + 1, enough, position, rest, _ => by
      have text : plainOf (Written.object members).pieces ++ rest =
          '\x7b' :: (plainOf members.pieces ++ '\x7d' :: rest) := by
        simp [Written.pieces, Piece.plain]
      have within : (plainOf members.pieces).length < fuel := by
        simp [Written.pieces, Piece.plain] at enough
        omega
      obtain ⟨behind, read⟩ :=
        members.readMembers_pieces readable fuel within (position + 1) rest []
      refine ⟨behind, ?_⟩
      rw [text, readValue_object (members.skipSpace_begins _ _)]
      exact read

theorem WrittenItems.readItems_pieces : (items : WrittenItems) → items.Readable → ∀ fuel,
    (plainOf items.pieces).length < fuel → ∀ position rest done, ∃ behind,
      readItems fuel (Rest.skipSpace ⟨plainOf items.pieces ++ ']' :: rest, position⟩) done =
        .ok (.array (done.reverse ++ items.values), ⟨rest, behind⟩)
  | .last before item after extra, readable, fuel + 1, enough, position, rest, done => by
      have split : plainOf (WrittenItems.last before item after extra).pieces ++ ']' :: rest =
          plainOf (gapPieces before) ++ (plainOf item.pieces ++
            (plainOf (gapPieces (after ++ extra.getD [])) ++ ']' :: rest)) := by
        simp [WrittenItems.pieces, gapPieces_append, plainOf_extraPieces]
      have within : (plainOf item.pieces).length ≤ fuel := by
        simp only [WrittenItems.pieces, plainOf_append, List.length_append] at enough
        omega
      obtain ⟨start, skipped⟩ := item.skipSpace_before before
        (plainOf (gapPieces (after ++ extra.getD [])) ++ ']' :: rest) position
      obtain ⟨_, read⟩ := item.readValue_pieces readable fuel within start _
        (delimits_gap (after ++ extra.getD []) (c := ']') rfl rest)
      obtain ⟨behind, step⟩ := readItems_step read rfl done
      refine ⟨behind + 1, ?_⟩
      rw [split, skipped, step]
      simp [WrittenItems.values]
  | .more before item after others, readable, fuel + 1, enough, position, rest, done => by
      have split : plainOf (WrittenItems.more before item after others).pieces ++ ']' :: rest =
          plainOf (gapPieces before) ++ (plainOf item.pieces ++
            (plainOf (gapPieces after) ++ ',' :: (plainOf others.pieces ++ ']' :: rest))) := by
        simp [WrittenItems.pieces, Piece.plain]
      have within :
          (plainOf item.pieces).length ≤ fuel ∧ (plainOf others.pieces).length < fuel := by
        obtain ⟨c, tail, begun, -⟩ := item.begins
        simp only [WrittenItems.pieces, plainOf_append, plainOf_cons, List.length_append,
          Piece.plain, List.length_cons, begun] at enough ⊢
        omega
      obtain ⟨start, skipped⟩ := item.skipSpace_before before
        (plainOf (gapPieces after) ++ ',' :: (plainOf others.pieces ++ ']' :: rest)) position
      obtain ⟨_, read⟩ := item.readValue_pieces readable.1 fuel within.1 start _
        (delimits_gap after (c := ',') rfl (plainOf others.pieces ++ ']' :: rest))
      obtain ⟨next, step⟩ := readItems_step read rfl done
      obtain ⟨behind, finish⟩ := others.readItems_pieces readable.2 fuel within.2 (next + 1) rest
        (item.value :: done)
      refine ⟨behind, ?_⟩
      rw [split, skipped, step]
      refine finish.trans ?_
      simp [WrittenItems.values]

theorem WrittenMembers.readMembers_pieces : (members : WrittenMembers) → members.Readable → ∀ fuel,
    (plainOf members.pieces).length < fuel → ∀ position rest done, ∃ behind,
      readMembers fuel (Rest.skipSpace ⟨plainOf members.pieces ++ '\x7d' :: rest, position⟩) done =
        .ok (.object (collectMembers (done.reverse ++ members.values)), ⟨rest, behind⟩)
  | .last before key afterKey beforeValue value after extra, readable, fuel + 1, enough, position,
      rest, done => by
      have split : plainOf (WrittenMembers.last before key afterKey beforeValue value after
            extra).pieces ++ '\x7d' :: rest =
          plainOf (gapPieces before) ++ (stringText key ++ (plainOf (gapPieces afterKey) ++
            ':' :: (plainOf (gapPieces beforeValue) ++ (plainOf value.pieces ++
              (plainOf (gapPieces (after ++ extra.getD [])) ++ '\x7d' :: rest))))) := by
        simp [WrittenMembers.pieces, keyPieces, Piece.plain, gapPieces_append, plainOf_extraPieces]
      have within : (plainOf value.pieces).length ≤ fuel := by
        simp only [WrittenMembers.pieces, plainOf_append, List.length_append] at enough
        omega
      obtain ⟨start, skipped⟩ := skipSpace_string before key _ position
      obtain ⟨behind, step⟩ := readMembers_step key afterKey beforeValue
        (fun start => value.readValue_pieces readable fuel within start _
          (delimits_gap (after ++ extra.getD []) (c := '\x7d') rfl rest)) rfl start done
      refine ⟨behind + 1, ?_⟩
      rw [split, skipped, step]
      simp [WrittenMembers.values]
  | .more before key afterKey beforeValue value after others, readable, fuel + 1, enough, position,
      rest, done => by
      have split : plainOf (WrittenMembers.more before key afterKey beforeValue value after
            others).pieces ++ '\x7d' :: rest =
          plainOf (gapPieces before) ++ (stringText key ++ (plainOf (gapPieces afterKey) ++
            ':' :: (plainOf (gapPieces beforeValue) ++ (plainOf value.pieces ++
              (plainOf (gapPieces after) ++ ',' :: (plainOf others.pieces ++
                '\x7d' :: rest)))))) := by
        simp [WrittenMembers.pieces, keyPieces, Piece.plain]
      have within : (plainOf value.pieces).length ≤ fuel ∧
          (plainOf others.pieces).length < fuel := by
        obtain ⟨c, tail, begun, -⟩ := value.begins
        simp only [WrittenMembers.pieces, plainOf_append, plainOf_cons, List.length_append,
          Piece.plain, List.length_cons, begun] at enough ⊢
        omega
      obtain ⟨start, skipped⟩ := skipSpace_string before key _ position
      obtain ⟨next, step⟩ := readMembers_step key afterKey beforeValue
        (fun start => value.readValue_pieces readable.1 fuel within.1 start _
          (delimits_gap after (c := ',') rfl (plainOf others.pieces ++ '\x7d' :: rest)))
        rfl start done
      obtain ⟨behind, finish⟩ := others.readMembers_pieces readable.2 fuel within.2 (next + 1) rest
        ((String.ofList (meaning key), value.value) :: done)
      refine ⟨behind, ?_⟩
      rw [split, skipped, step]
      refine finish.trans ?_
      simp [WrittenMembers.values]

end

/-- A text of a value does not begin with a byte order mark. -/
theorem Written.head_before (before : List Filler) (w : Written) (rest : List Char) :
    (plainOf (gapPieces before) ++ (plainOf w.pieces ++ rest)).head? ≠ some '\uFEFF' := by
  cases blank : plainOf (gapPieces before) with
  | nil =>
      obtain ⟨c, others, begun, -, -, noMark⟩ := w.begins
      simpa [begun] using noMark
  | cons e others =>
      have white := isSpace_of_mem_plainOf_gapPieces before e (blank ▸ List.mem_cons_self)
      rintro ⟨⟩
      exact absurd white (by decide)

/-- What a document leaves behind without its comments and extra commas is read as its value. -/
theorem Document.read_plain (d : Document) (readable : d.body.Readable) :
    read d.plain = .ok d.value := by
  have text : d.plain =
      plainOf (gapPieces d.before) ++ (plainOf d.body.pieces ++ plainOf (gapPieces d.after)) := by
    rw [Document.plain, Document.pieces]
    cases d.ending <;> simp [endingPieces, Piece.plain]
  have delimits : Delimits (plainOf (gapPieces d.after)) := fun c begun => by
    simp [isDelimiter, isSpace_of_mem_plainOf_gapPieces d.after c (List.mem_of_head? begun)]
  have within : (plainOf d.body.pieces).length ≤ 2 * d.plain.length + 1 := by
    rw [text, List.length_append, List.length_append]
    omega
  obtain ⟨start, skipped⟩ := d.body.skipSpace_before d.before (plainOf (gapPieces d.after)) 0
  obtain ⟨position, value⟩ :=
    d.body.readValue_pieces readable _ within start _ delimits
  obtain ⟨_, ended⟩ := Rest.skipSpace_gap_end d.after position
  rw [text] at value
  rw [read, readWithin, text, if_neg (by simpa using d.body.head_before d.before _), skipped, value]
  simp [bind, Except.bind, ended]
  rfl

/-- Taking out comments gives exactly the text without its comments and extra commas; that is plain
JSON of the same value, and it is read as that value if no whole number in it is too long. -/
theorem stripComments_document (d : Document) :
    stripComments d.text = d.plain ∧
      (∃ e : Document, e.IsPlain ∧ e.text = d.plain ∧ e.value = d.value) ∧
      (d.body.Readable → read (stripComments d.text) = .ok d.value) := by
  have stripped := stripComments_text d
  refine ⟨stripped, ⟨d.bare, d.isPlain_bare⟩, fun readable => ?_⟩
  rw [stripped]
  exact d.read_plain readable

/-- A document with comments that look like text, text that looks like comments and extra commas. -/
def annotated : Document where
  before := [.line "\"head\" ,]".toList (by decide)]
  body :=
    .object (.last [] [.char '/' (by decide) (by decide) (by decide),
        .char '/' (by decide) (by decide) (by decide), .escape '"' '"' (by decide)] [] []
      (.array (.last [] (.atom (.string [.char ',' (by decide) (by decide) (by decide),
          .char ']' (by decide) (by decide) (by decide)])) []
        (some [.block " ] ".toList (by decide)])))
      [] (some [.space ' ' rfl]))
  after := []
  ending := some ⟨" tail \x7d".toList, by decide⟩

theorem stripComments_annotated :
    annotated.text = "//\"head\" ,]\n\x7b\"//\\\"\":[\",]\",/* ] */], \x7d// tail \x7d".toList ∧
      annotated.body.Readable ∧
      stripComments annotated.text = "\n\x7b\"//\\\"\":[\",]\"] \x7d".toList ∧
      read (stripComments annotated.text) =
        .ok (.object [("//\"", .array [.text ",]"])]) := by
  have readable : annotated.body.Readable := trivial
  obtain ⟨stripped, -, reads⟩ := stripComments_document annotated
  exact ⟨by decide, readable, stripped, reads readable⟩

end SourceAtlas.Json
