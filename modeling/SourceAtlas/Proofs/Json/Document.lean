/-
# JSON documents as they are written

A document is a JSON value together with the way it is written: the spelling of its numbers and
strings, the white space and the comments between its tokens, and the commas that stand before a
closing bracket without an item after them. Its text is made of pieces, and each piece either
belongs to plain JSON or is a comment or such an extra comma. Without those the same document is
plain JSON of the same value.

A line comment ends at a line feed, which is white space and no part of it. Only behind the value
may a line comment end with the text.
-/

import Mathlib.Data.List.Infix
import SourceAtlas.Json.Reader

namespace SourceAtlas.Json

/-- A stretch of a text. -/
inductive Piece where
  /-- What belongs to plain JSON. -/
  | kept (chars : List Char)
  | comment (chars : List Char)
  /-- A comma before a closing bracket. -/
  | extraComma

def Piece.text : Piece → List Char
  | .kept chars => chars
  | .comment chars => chars
  | .extraComma => [',']

/-- What a piece leaves behind in plain JSON. -/
def Piece.plain : Piece → List Char
  | .kept chars => chars
  | .comment _ => []
  | .extraComma => []

/-- Whether a piece belongs to plain JSON. -/
def Piece.IsKept (p : Piece) : Prop := ∃ chars, p = .kept chars

def textOf (pieces : List Piece) : List Char := pieces.flatMap Piece.text

/-- The text of pieces without the comments and the extra commas. -/
def plainOf (pieces : List Piece) : List Char := pieces.flatMap Piece.plain

@[simp]
theorem textOf_nil : textOf [] = [] := rfl

@[simp]
theorem textOf_cons (p : Piece) (rest : List Piece) :
    textOf (p :: rest) = p.text ++ textOf rest := rfl

@[simp]
theorem textOf_append (first second : List Piece) :
    textOf (first ++ second) = textOf first ++ textOf second :=
  List.flatMap_append

@[simp]
theorem plainOf_nil : plainOf [] = [] := rfl

@[simp]
theorem plainOf_cons (p : Piece) (rest : List Piece) :
    plainOf (p :: rest) = p.plain ++ plainOf rest := rfl

@[simp]
theorem plainOf_append (first second : List Piece) :
    plainOf (first ++ second) = plainOf first ++ plainOf second :=
  List.flatMap_append

/-- Whether pieces all belong to plain JSON. -/
def AllKept (pieces : List Piece) : Prop := ∀ p ∈ pieces, p.IsKept

@[simp]
theorem allKept_nil : AllKept [] := fun _ listed => absurd listed List.not_mem_nil

@[simp]
theorem allKept_kept_cons {chars : List Char} {rest : List Piece} :
    AllKept (.kept chars :: rest) ↔ AllKept rest := by
  simp [AllKept, Piece.IsKept]

@[simp]
theorem allKept_append {first second : List Piece} :
    AllKept (first ++ second) ↔ AllKept first ∧ AllKept second := by
  simp [AllKept, or_imp, forall_and]

theorem AllKept.textOf_eq {pieces : List Piece} (all : AllKept pieces) :
    textOf pieces = plainOf pieces := by
  induction pieces with
  | nil => rfl
  | cons p rest ih =>
      obtain ⟨chars, rfl⟩ := all p List.mem_cons_self
      rw [textOf_cons, plainOf_cons, ih fun q later => all q (List.mem_cons_of_mem _ later)]
      rfl

/-- What may stand between two tokens. -/
inductive Filler where
  | space (c : Char) (white : isSpace c = true)
  /-- A line comment and the line feed that ends it. -/
  | line (body : List Char) (oneLine : '\n' ∉ body)
  | block (body : List Char) (closedOnce : ¬ ['*', '/'] <:+: body)

def Filler.pieces : Filler → List Piece
  | .space c _ => [.kept [c]]
  | .line body _ => [.comment ('/' :: '/' :: body), .kept ['\n']]
  | .block body _ => [.comment ('/' :: '*' :: body ++ ['*', '/'])]

/-- The white space that remains of a filler in plain JSON. -/
def Filler.spaces : Filler → List Filler
  | .space c white => [.space c white]
  | .line _ _ => [.space '\n' rfl]
  | .block _ _ => []

def gapPieces (gap : List Filler) : List Piece := gap.flatMap Filler.pieces

theorem gapPieces_cons (filler : Filler) (rest : List Filler) :
    gapPieces (filler :: rest) = filler.pieces ++ gapPieces rest := rfl

/-- The white space that remains between two tokens. -/
def gapSpaces (gap : List Filler) : List Filler := gap.flatMap Filler.spaces

theorem isSpace_of_mem_plainOf_gapPieces (gap : List Filler) :
    ∀ c ∈ plainOf (gapPieces gap), isSpace c = true := by
  induction gap with
  | nil => exact fun _ listed => absurd listed List.not_mem_nil
  | cons filler rest ih =>
      intro c listed
      rw [gapPieces_cons, plainOf_append, List.mem_append] at listed
      rcases listed with here | later
      · cases filler with
        | space d white =>
            obtain rfl : c = d := by simpa [Filler.pieces, Piece.plain] using here
            exact white
        | line body oneLine =>
            obtain rfl : c = '\n' := by simpa [Filler.pieces, Piece.plain] using here
            rfl
        | block body closedOnce => simp [Filler.pieces, Piece.plain] at here
      · exact ih c later

/-- The letters of the short escapes with what they stand for. -/
def escapeLetters : List (Char × Char) :=
  [('"', '"'), ('\\', '\\'), ('/', '/'), ('b', '\x08'), ('f', '\x0c'), ('n', '\n'), ('r', '\r'),
    ('t', '\t')]

/-- One item inside a string. -/
inductive StringItem where
  | char (c : Char) (shown : 0x20 ≤ c.toNat) (noQuote : c ≠ '"') (noEscape : c ≠ '\\')
  | escape (letter c : Char) (known : (letter, c) ∈ escapeLetters)
  /-- A sixteen-bit unit by its four hexadecimal digits. -/
  | unit (digits : List Char) (n : Nat) (four : digits.length = 4)
      (spelled : hex4Value? digits = some n)

def StringItem.text : StringItem → List Char
  | .char c _ _ _ => [c]
  | .escape letter _ _ => ['\\', letter]
  | .unit digits _ _ _ => '\\' :: 'u' :: digits

/-- Whether a unit is the first half of a pair. -/
def isHighUnit (n : Nat) : Bool := 0xD800 ≤ n && n ≤ 0xDBFF

def isLowUnit (n : Nat) : Bool := 0xDC00 ≤ n && n ≤ 0xDFFF

def pairChar (high low : Nat) : Char :=
  Char.ofNat (0x10000 + (high - 0xD800) * 0x400 + (low - 0xDC00))

/-- The character of a unit by itself; half a pair stands for the replacement character. -/
def unitChar (n : Nat) : Char :=
  if isHighUnit n || isLowUnit n then '\uFFFD' else Char.ofNat n

/-- The characters that items stand for. -/
def meaning : List StringItem → List Char
  | [] => []
  | .char c _ _ _ :: rest => c :: meaning rest
  | .escape _ c _ :: rest => c :: meaning rest
  | .unit _ n _ _ :: .unit digits m four spelled :: rest =>
    if isHighUnit n && isLowUnit m then pairChar n m :: meaning rest
    else unitChar n :: meaning (.unit digits m four spelled :: rest)
  | .unit _ n _ _ :: rest => unitChar n :: meaning rest

def itemsText (items : List StringItem) : List Char := items.flatMap StringItem.text

def stringText (items : List StringItem) : List Char := '"' :: itemsText items ++ ['"']

/-- One or more decimal digits. -/
structure Digits where
  chars : List Char
  nonempty : chars ≠ []
  digits : ∀ c ∈ chars, c.isDigit = true

/-- An exponent as it is written. -/
structure Exponent where
  capital : Bool
  /-- The sign, if there is one, and whether it is a minus. -/
  minus : Option Bool
  digits : Digits

def Exponent.text (e : Exponent) : List Char :=
  (if e.capital then 'E' else 'e') ::
    ((match e.minus with
      | none => []
      | some true => ['-']
      | some false => ['+']) ++ e.digits.chars)

def Exponent.value (e : Exponent) : Int :=
  if e.minus = some true then -(Number.digitsValue e.digits.chars : Int)
  else Number.digitsValue e.digits.chars

/-- A number as it is written. -/
structure Numeral where
  negative : Bool
  whole : Digits
  /-- A number that starts with a zero has no other digit before the point. -/
  leadingZero : whole.chars.head? = some '0' → whole.chars = ['0']
  fraction : Option Digits
  exponent : Option Exponent

def Numeral.fractionChars (n : Numeral) : List Char := (n.fraction.map Digits.chars).getD []

def Numeral.text (n : Numeral) : List Char :=
  (if n.negative then ['-'] else []) ++ n.whole.chars ++
    ((n.fraction.map fun d => '.' :: d.chars).getD []) ++
    ((n.exponent.map Exponent.text).getD [])

/-- The value of a number: whole if it has neither a point nor an exponent. -/
def Numeral.value (n : Numeral) : Number :=
  if n.fraction.isNone && n.exponent.isNone then
    .int (if n.negative then -(Number.digitsValue n.whole.chars : Int)
      else Number.digitsValue n.whole.chars)
  else
    .float (Number.NumeralParts.toFloat
      { negative := n.negative, whole := n.whole.chars, fraction := n.fractionChars
        exponent := (n.exponent.map Exponent.value).getD 0 })

/-! ## Values -/

/-- A token that is a value by itself. -/
inductive Atom where
  | null
  | bool (b : Bool)
  | number (n : Numeral)
  | string (items : List StringItem)

def Atom.text : Atom → List Char
  | .null => "null".toList
  | .bool true => "true".toList
  | .bool false => "false".toList
  | .number n => n.text
  | .string items => stringText items

def Atom.value : Atom → Json
  | .null => .null
  | .bool b => .bool b
  | .number n => .number n.value
  | .string items => .text (String.ofList (meaning items))

mutual

/-- A value as it is written, with the white space and the comments inside it. Its text and its
value are both told from it, so a text is related to its value without a word about reading. -/
inductive Written where
  | atom (a : Atom)
  | emptyArray (inside : List Filler)
  | array (items : WrittenItems)
  | emptyObject (inside : List Filler)
  | object (members : WrittenMembers)

/-- The items of an array, up to the closing bracket. Behind the last of them may stand a comma
with more white space and comments. -/
inductive WrittenItems where
  | last (before : List Filler) (item : Written) (after : List Filler)
      (extra : Option (List Filler))
  | more (before : List Filler) (item : Written) (after : List Filler) (rest : WrittenItems)

/-- The members of an object, up to the closing bracket. -/
inductive WrittenMembers where
  | last (before : List Filler) (key : List StringItem) (afterKey beforeValue : List Filler)
      (value : Written) (after : List Filler) (extra : Option (List Filler))
  | more (before : List Filler) (key : List StringItem) (afterKey beforeValue : List Filler)
      (value : Written) (after : List Filler) (rest : WrittenMembers)

end

/-- The pieces of a comma before a closing bracket, if there is one. -/
def extraPieces : Option (List Filler) → List Piece
  | none => []
  | some gap => .extraComma :: gapPieces gap

/-- The pieces of a key up to its value. -/
def keyPieces (before : List Filler) (key : List StringItem) (afterKey beforeValue : List Filler) :
    List Piece :=
  gapPieces before ++ .kept (stringText key) :: gapPieces afterKey ++
    .kept [':'] :: gapPieces beforeValue

mutual

def Written.pieces : Written → List Piece
  | .atom a => [.kept a.text]
  | .emptyArray inside => .kept ['['] :: gapPieces inside ++ [.kept [']']]
  | .array items => .kept ['['] :: items.pieces ++ [.kept [']']]
  | .emptyObject inside => .kept ['\x7b'] :: gapPieces inside ++ [.kept ['\x7d']]
  | .object members => .kept ['\x7b'] :: members.pieces ++ [.kept ['\x7d']]

def WrittenItems.pieces : WrittenItems → List Piece
  | .last before item after extra =>
    gapPieces before ++ item.pieces ++ gapPieces after ++ extraPieces extra
  | .more before item after rest =>
    gapPieces before ++ item.pieces ++ gapPieces after ++ .kept [','] :: rest.pieces

def WrittenMembers.pieces : WrittenMembers → List Piece
  | .last before key afterKey beforeValue value after extra =>
    keyPieces before key afterKey beforeValue ++ value.pieces ++ gapPieces after ++
      extraPieces extra
  | .more before key afterKey beforeValue value after rest =>
    keyPieces before key afterKey beforeValue ++ value.pieces ++ gapPieces after ++
      .kept [','] :: rest.pieces

end

mutual

def Written.value : Written → Json
  | .atom a => a.value
  | .emptyArray _ => .array []
  | .array items => .array items.values
  | .emptyObject _ => .object []
  | .object members => .object (collectMembers members.values)

def WrittenItems.values : WrittenItems → List Json
  | .last _ item _ _ => [item.value]
  | .more _ item _ rest => item.value :: rest.values

/-- The keys and values of the members of an object, as they come. -/
def WrittenMembers.values : WrittenMembers → List (String × Json)
  | .last _ key _ _ value _ _ => [(String.ofList (meaning key), value.value)]
  | .more _ key _ _ value _ rest => (String.ofList (meaning key), value.value) :: rest.values

end

/-- A whole text with one value. White space and comments may surround the value, and only the last
line comment may do without the end of its line. -/
structure Document where
  before : List Filler
  body : Written
  after : List Filler
  /-- The line comment with which the text ends, if it does. -/
  ending : Option { comment : List Char // '\n' ∉ comment }

/-- The pieces of a line comment at the end of a text. -/
def endingPieces : Option { comment : List Char // '\n' ∉ comment } → List Piece
  | none => []
  | some comment => [.comment ('/' :: '/' :: comment.val)]

def Document.pieces (d : Document) : List Piece :=
  gapPieces d.before ++ d.body.pieces ++ gapPieces d.after ++ endingPieces d.ending

def Document.text (d : Document) : List Char := textOf d.pieces

/-- The text of a document without its comments and its extra commas. -/
def Document.plain (d : Document) : List Char := plainOf d.pieces

def Document.value (d : Document) : Json := d.body.value

def Document.IsPlain (d : Document) : Prop := AllKept d.pieces

mutual

/-- The same value without comments and extra commas. -/
def Written.bare : Written → Written
  | .atom a => .atom a
  | .emptyArray inside => .emptyArray (gapSpaces inside)
  | .array items => .array items.bare
  | .emptyObject inside => .emptyObject (gapSpaces inside)
  | .object members => .object members.bare

def WrittenItems.bare : WrittenItems → WrittenItems
  | .last before item after extra =>
    .last (gapSpaces before) item.bare (gapSpaces after ++ gapSpaces (extra.getD [])) none
  | .more before item after rest =>
    .more (gapSpaces before) item.bare (gapSpaces after) rest.bare

def WrittenMembers.bare : WrittenMembers → WrittenMembers
  | .last before key afterKey beforeValue value after extra =>
    .last (gapSpaces before) key (gapSpaces afterKey) (gapSpaces beforeValue) value.bare
      (gapSpaces after ++ gapSpaces (extra.getD [])) none
  | .more before key afterKey beforeValue value after rest =>
    .more (gapSpaces before) key (gapSpaces afterKey) (gapSpaces beforeValue) value.bare
      (gapSpaces after) rest.bare

end

/-- The same document in plain JSON. -/
def Document.bare (d : Document) : Document where
  before := gapSpaces d.before
  body := d.body.bare
  after := gapSpaces d.after
  ending := none

theorem gapPieces_append (first second : List Filler) :
    gapPieces (first ++ second) = gapPieces first ++ gapPieces second :=
  List.flatMap_append

/-- Of what stands between two tokens the white space remains. -/
theorem gapPieces_gapSpaces (gap : List Filler) :
    AllKept (gapPieces (gapSpaces gap)) ∧
      plainOf (gapPieces (gapSpaces gap)) = plainOf (gapPieces gap) := by
  induction gap with
  | nil => simp [gapPieces, gapSpaces]
  | cons filler rest ih =>
      have split : gapPieces (gapSpaces (filler :: rest)) =
          gapPieces filler.spaces ++ gapPieces (gapSpaces rest) :=
        gapPieces_append _ _
      have head : AllKept (gapPieces filler.spaces) ∧
          plainOf (gapPieces filler.spaces) = plainOf filler.pieces := by
        cases filler <;> simp [gapPieces, Filler.spaces, Filler.pieces, Piece.plain]
      rw [split, gapPieces_cons, allKept_append, plainOf_append, plainOf_append, ih.2, head.2]
      exact ⟨⟨head.1, ih.1⟩, rfl⟩

@[simp]
theorem extraPieces_none : extraPieces none = [] := rfl

theorem plainOf_extraPieces (extra : Option (List Filler)) :
    plainOf (extraPieces extra) = plainOf (gapPieces (extra.getD [])) := by
  cases extra <;> rfl

mutual

theorem Written.pieces_bare : (w : Written) →
    AllKept w.bare.pieces ∧ plainOf w.bare.pieces = plainOf w.pieces
  | .atom a => by simp [Written.bare, Written.pieces]
  | .emptyArray inside => by simp [Written.bare, Written.pieces, gapPieces_gapSpaces]
  | .array items => by simp [Written.bare, Written.pieces, items.pieces_bare]
  | .emptyObject inside => by simp [Written.bare, Written.pieces, gapPieces_gapSpaces]
  | .object members => by simp [Written.bare, Written.pieces, members.pieces_bare]

theorem WrittenItems.pieces_bare : (items : WrittenItems) →
    AllKept items.bare.pieces ∧ plainOf items.bare.pieces = plainOf items.pieces
  | .last before item after extra => by
      simp [WrittenItems.bare, WrittenItems.pieces, item.pieces_bare, gapPieces_gapSpaces,
        gapPieces_append, plainOf_extraPieces]
  | .more before item after rest => by
      simp [WrittenItems.bare, WrittenItems.pieces, item.pieces_bare, rest.pieces_bare,
        gapPieces_gapSpaces]

theorem WrittenMembers.pieces_bare : (members : WrittenMembers) →
    AllKept members.bare.pieces ∧ plainOf members.bare.pieces = plainOf members.pieces
  | .last before key afterKey beforeValue value after extra => by
      simp [WrittenMembers.bare, WrittenMembers.pieces, keyPieces, value.pieces_bare,
        gapPieces_gapSpaces, gapPieces_append, plainOf_extraPieces]
  | .more before key afterKey beforeValue value after rest => by
      simp [WrittenMembers.bare, WrittenMembers.pieces, keyPieces, value.pieces_bare,
        rest.pieces_bare, gapPieces_gapSpaces]

end

mutual

theorem Written.value_bare : (w : Written) → w.bare.value = w.value
  | .atom a => rfl
  | .emptyArray inside => rfl
  | .array items => by rw [Written.bare, Written.value, Written.value, items.values_bare]
  | .emptyObject inside => rfl
  | .object members => by rw [Written.bare, Written.value, Written.value, members.values_bare]

theorem WrittenItems.values_bare : (items : WrittenItems) → items.bare.values = items.values
  | .last before item after extra => by
      rw [WrittenItems.bare, WrittenItems.values, WrittenItems.values, item.value_bare]
  | .more before item after rest => by
      rw [WrittenItems.bare, WrittenItems.values, WrittenItems.values, item.value_bare,
        rest.values_bare]

theorem WrittenMembers.values_bare :
    (members : WrittenMembers) → members.bare.values = members.values
  | .last before key afterKey beforeValue value after extra => by
      rw [WrittenMembers.bare, WrittenMembers.values, WrittenMembers.values, value.value_bare]
  | .more before key afterKey beforeValue value after rest => by
      rw [WrittenMembers.bare, WrittenMembers.values, WrittenMembers.values, value.value_bare,
        rest.values_bare]

end

/-- Without its comments and extra commas a document is plain JSON of the same value. -/
theorem Document.isPlain_bare (d : Document) :
    d.bare.IsPlain ∧ d.bare.text = d.plain ∧ d.bare.value = d.value := by
  have kept : AllKept d.bare.pieces := by
    simp [Document.pieces, Document.bare, gapPieces_gapSpaces, Written.pieces_bare, endingPieces]
  refine ⟨kept, ?_, d.body.value_bare⟩
  rw [Document.text, kept.textOf_eq, Document.plain, Document.pieces, Document.pieces]
  cases ending : d.ending <;>
    simp [Document.bare, gapPieces_gapSpaces, Written.pieces_bare, endingPieces, Piece.plain]

end SourceAtlas.Json
