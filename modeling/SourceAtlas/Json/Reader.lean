/-
# Reading JSON

A reader for JSON text that also takes the words `NaN`, `Infinity` and `-Infinity` for numbers. A
text that is not JSON is refused with the first fault met from left to right and its position,
counted in characters.
-/

import SourceAtlas.Json.Basic

namespace SourceAtlas.Json

/-- What is wrong with a JSON text. -/
inductive FaultKind where
  | byteOrderMark
  | expectingValue
  | expectingName
  | expectingColon
  | expectingComma
  | unterminated
  | controlCharacter
  | badEscape
  | badUnicodeEscape
  | extraData
deriving DecidableEq, Repr

/-- The fault in words, without its position. -/
def FaultKind.message : FaultKind → String
  | .byteOrderMark => "Unexpected UTF-8 BOM (decode using utf-8-sig)"
  | .expectingValue => "Expecting value"
  | .expectingName => "Expecting property name enclosed in double quotes"
  | .expectingColon => "Expecting ':' delimiter"
  | .expectingComma => "Expecting ',' delimiter"
  | .unterminated => "Unterminated string starting at"
  | .controlCharacter => "Invalid control character at"
  | .badEscape => "Invalid \\escape"
  | .badUnicodeEscape => "Invalid \\uXXXX escape"
  | .extraData => "Extra data"

/-- Why a text could not be read. -/
inductive Fault where
  /-- The text is not JSON from a position on. -/
  | malformed (kind : FaultKind) (position : Nat)
  /-- A whole number has more digits than are read. -/
  | tooManyDigits (count : Nat)
deriving DecidableEq, Repr

/-- The line, counted from one, and the column, counted from one, of a position. -/
def lineAndColumn (text : List Char) (position : Nat) : Nat × Nat :=
  let before := text.take position
  let sinceBreak := before.reverse.takeWhile (· != '\n')
  (before.countP (· == '\n') + 1, sinceBreak.length + 1)

def Fault.message (text : List Char) : Fault → String
  | .malformed kind position =>
    let (line, column) := lineAndColumn text position
    s!"{kind.message}: line {line} column {column} (char {position})"
  | .tooManyDigits count => Number.wholeDigitLimitMessage (some count)

/-- What is left of a text and the position where it starts. -/
structure Rest where
  chars : List Char
  position : Nat

def isSpace (c : Char) : Bool :=
  c == ' ' || c == '\t' || c == '\n' || c == '\r'

def Rest.drop (r : Rest) (count : Nat) : Rest :=
  ⟨r.chars.drop count, r.position + count⟩

def Rest.skipSpace (r : Rest) : Rest :=
  r.drop (r.chars.takeWhile isSpace).length

def refuse {α : Type} (kind : FaultKind) (position : Nat) : Except Fault α :=
  .error (.malformed kind position)

/-- The value of the first four characters as hexadecimal digits. -/
def hex4Value? (chars : List Char) : Option Nat :=
  match chars with
  | a :: b :: c :: d :: _ => do
    let a ← Number.hexValue? a
    let b ← Number.hexValue? b
    let c ← Number.hexValue? c
    let d ← Number.hexValue? d
    return ((a * 16 + b) * 16 + c) * 16 + d
  | _ => none

/-- The character that a one-letter escape stands for. -/
def simpleEscape? (c : Char) : Option Char :=
  if c == '"' || c == '\\' || c == '/' then some c
  else if c == 'b' then some '\x08'
  else if c == 'f' then some '\x0c'
  else if c == 'n' then some '\n'
  else if c == 'r' then some '\r'
  else if c == 't' then some '\t'
  else none

/-- The low surrogate written as an escape at the front of the characters. A further character has
to follow it. -/
def lowSurrogate? (chars : List Char) : Option (Except Unit Nat) :=
  match chars with
  | '\\' :: 'u' :: digits =>
    if (digits.drop 4).isEmpty then none
    else
      match hex4Value? digits with
      | none => some (.error ())
      | some n => if 0xDC00 ≤ n && n ≤ 0xDFFF then some (.ok n) else none
  | _ => none

/-- Reads the inside of a string up to and including its closing quote. The string began at
position `opened`; the characters read so far stand in reverse. An escape that names one half of a
surrogate pair, with the other half not next to it, is read as U+FFFD, since half a pair is no
character. -/
def readString (opened : Nat) : Nat → Rest → List Char → Except Fault (String × Rest)
  | 0, _, _ => refuse .unterminated opened
  | fuel + 1, r, done =>
    match r.chars with
    | [] => refuse .unterminated opened
    | '"' :: rest => .ok (String.ofList done.reverse, ⟨rest, r.position + 1⟩)
    | '\\' :: [] => refuse .unterminated opened
    | '\\' :: 'u' :: digits =>
      if (digits.drop 4).isEmpty then refuse .badUnicodeEscape (r.position + 1)
      else
        match hex4Value? digits with
        | none => refuse .badUnicodeEscape (r.position + 1)
        | some n =>
          let after := r.drop 6
          if 0xD800 ≤ n && n ≤ 0xDBFF then
            match lowSurrogate? after.chars with
            | some (.error _) => refuse .badUnicodeEscape (after.position + 1)
            | some (.ok low) =>
              let c := Char.ofNat (0x10000 + (n - 0xD800) * 0x400 + (low - 0xDC00))
              readString opened fuel (after.drop 6) (c :: done)
            | none => readString opened fuel after ('\uFFFD' :: done)
          else
            let c := if 0xDC00 ≤ n && n ≤ 0xDFFF then '\uFFFD' else Char.ofNat n
            readString opened fuel after (c :: done)
    | '\\' :: c :: rest =>
      match simpleEscape? c with
      | none => refuse .badEscape r.position
      | some e => readString opened fuel ⟨rest, r.position + 2⟩ (e :: done)
    | c :: rest =>
      if c.toNat < 0x20 then refuse .controlCharacter r.position
      else readString opened fuel ⟨rest, r.position + 1⟩ (c :: done)

/-- The digits after a point, if a point and at least one digit stand at the front. -/
def fractionDigits (chars : List Char) : List Char :=
  match chars with
  | '.' :: rest => rest.takeWhile Char.isDigit
  | _ => []

/-- An exponent at the front: its value and its length in characters. -/
def exponentPart? (chars : List Char) : Option (Int × Nat) :=
  match chars with
  | [] => none
  | mark :: rest =>
    if mark == 'e' || mark == 'E' then
      let signed := rest.head? == some '-' || rest.head? == some '+'
      let digits := (if signed then rest.drop 1 else rest).takeWhile Char.isDigit
      if digits.isEmpty then none
      else
        let value : Int := Number.digitsValue digits
        some (if rest.head? == some '-' then -value else value,
          1 + (if signed then 1 else 0) + digits.length)
    else none

/-- Reads a number; without digits there is no value at its start. -/
def readNumber (r : Rest) : Except Fault (Json × Rest) :=
  let negative := r.chars.head? == some '-'
  let body := if negative then r.chars.drop 1 else r.chars
  let whole :=
    match body with
    | '0' :: _ => ['0']
    | body => body.takeWhile Char.isDigit
  if whole.isEmpty then refuse .expectingValue r.position
  else
    let afterWhole := body.drop whole.length
    let fraction := fractionDigits afterWhole
    let fractionLength := if fraction.isEmpty then 0 else fraction.length + 1
    let exponent := exponentPart? (afterWhole.drop fractionLength)
    let length := (if negative then 1 else 0) + whole.length + fractionLength +
      (exponent.map (·.2)).getD 0
    if fraction.isEmpty && exponent.isNone then
      if whole.length > Number.wholeDigitLimit then .error (.tooManyDigits whole.length)
      else
        let value : Int := Number.digitsValue whole
        .ok (.number (.int (if negative then -value else value)), r.drop length)
    else
      let parts : Number.NumeralParts :=
        { negative, whole, fraction, exponent := (exponent.map (·.1)).getD 0 }
      .ok (.number (.float parts.toFloat), r.drop length)

/-- The words that stand for a value. -/
def wordValues : List (List Char × Json) :=
  [("null".toList, .null), ("true".toList, .bool true), ("false".toList, .bool false),
    ("NaN".toList, .float Binary64.notANumber), ("Infinity".toList, .float Binary64.infinity),
    ("-Infinity".toList, .float (-Binary64.infinity))]

def readPlain (r : Rest) : Except Fault (Json × Rest) :=
  match wordValues.find? fun w => w.1.isPrefixOf r.chars with
  | some (word, value) => .ok (value, r.drop word.length)
  | none => readNumber r

mutual

/-- Reads the value that starts here. -/
def readValue : Nat → Rest → Except Fault (Json × Rest)
  | 0, r => refuse .expectingValue r.position
  | fuel + 1, r =>
    match r.chars with
    | '"' :: rest => do
      let (s, r) ← readString r.position (rest.length + 1) ⟨rest, r.position + 1⟩ []
      return (.text s, r)
    | '\x7b' :: rest =>
      let inside := Rest.skipSpace ⟨rest, r.position + 1⟩
      match inside.chars with
      | '\x7d' :: rest => .ok (.object [], ⟨rest, inside.position + 1⟩)
      | _ => readMembers fuel inside []
    | '[' :: rest =>
      let inside := Rest.skipSpace ⟨rest, r.position + 1⟩
      match inside.chars with
      | ']' :: rest => .ok (.array [], ⟨rest, inside.position + 1⟩)
      | _ => readItems fuel inside []
    | _ => readPlain r

/-- Reads the items of an array from the start of one of them. -/
def readItems : Nat → Rest → List Json → Except Fault (Json × Rest)
  | 0, r, _ => refuse .expectingValue r.position
  | fuel + 1, r, done => do
    let (item, r) ← readValue fuel r
    let r := r.skipSpace
    match r.chars with
    | ']' :: rest => return (.array (item :: done).reverse, ⟨rest, r.position + 1⟩)
    | ',' :: rest => readItems fuel (Rest.skipSpace ⟨rest, r.position + 1⟩) (item :: done)
    | _ => refuse .expectingComma r.position

/-- Reads the members of an object from the start of one of them. -/
def readMembers : Nat → Rest → List (String × Json) → Except Fault (Json × Rest)
  | 0, r, _ => refuse .expectingName r.position
  | fuel + 1, r, done => do
    match r.chars with
    | '"' :: rest =>
      let (key, r) ← readString r.position (rest.length + 1) ⟨rest, r.position + 1⟩ []
      let r := r.skipSpace
      match r.chars with
      | ':' :: rest =>
        let (value, r) ← readValue fuel (Rest.skipSpace ⟨rest, r.position + 1⟩)
        let r := r.skipSpace
        match r.chars with
        | '\x7d' :: rest =>
          return (.object (collectMembers ((key, value) :: done).reverse), ⟨rest, r.position + 1⟩)
        | ',' :: rest =>
          readMembers fuel (Rest.skipSpace ⟨rest, r.position + 1⟩) ((key, value) :: done)
        | _ => refuse .expectingComma r.position
      | _ => refuse .expectingColon r.position
    | _ => refuse .expectingName r.position

end

/-- Reads a whole text as one JSON value, which blanks may surround, in a bounded number of steps. -/
def readWithin (bound : Nat) (text : List Char) : Except Fault Json := do
  if text.head? == some '\uFEFF' then refuse .byteOrderMark 0
  else
    let (value, r) ← readValue bound (Rest.skipSpace ⟨text, 0⟩)
    let r := r.skipSpace
    if r.chars.isEmpty then return value else refuse .extraData r.position

/-- Reads a whole text as one JSON value. No character takes more than the two steps that an opening
bracket takes, so twice the length of the text is enough also for a text that is all brackets. -/
def read (text : List Char) : Except Fault Json := readWithin (2 * text.length + 1) text

end SourceAtlas.Json
