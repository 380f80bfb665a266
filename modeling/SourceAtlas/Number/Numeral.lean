/-
# Numbers in words of text

How a number is read from a text that holds nothing else. White space around it and digits of any
script are accepted, and an underscore may stand between two digits.
-/

import SourceAtlas.Number.Decimal
import SourceAtlas.Text.Basic
import SourceAtlas.Text.Quoted

namespace SourceAtlas.Number

/-- Why a text is not read as a number. -/
inductive NumeralFault where
  /-- The text is no whole number in a base; it is given between quotes. -/
  | notWhole (base : Nat) (shown : String)
  /-- The text is no number. -/
  | notANumeral (text : String)
  /-- The text has more digits than are read. -/
  | tooManyDigits (count : Nat)
deriving DecidableEq, Repr

/-- The most characters of a text that is no whole number that are shown. -/
def shownLimit : Nat := 200

def NumeralFault.message : NumeralFault → String
  | .notWhole base shown =>
    let start := String.ofList (shown.toList.take shownLimit)
    s!"invalid literal for int() with base {base}: {start}"
  | .notANumeral text => s!"could not convert string to float: {Text.quoted text}"
  | .tooManyDigits count => wholeDigitLimitMessage (some count)

/-- A digit of any script as an ASCII digit; anything else stays. -/
def asciiDigit (c : Char) : Char :=
  match Text.digitValue? c with
  | some n => Char.ofNat ('0'.toNat + n)
  | none => c

/-- The white space that may stand around a number: all of it but the information separators. -/
def isOuterSpace (c : Char) : Bool :=
  Text.isBlank c && !(0x1C ≤ c.toNat && c.toNat ≤ 0x1F)

/-- A text without white space around it and with ASCII digits. -/
def plainNumeral (text : String) : List Char :=
  let front := text.toList.dropWhile isOuterSpace
  ((front.reverse.dropWhile isOuterSpace).reverse).map asciiDigit

def takeSign : List Char → Bool × List Char
  | '-' :: rest => (true, rest)
  | '+' :: rest => (false, rest)
  | rest => (false, rest)

/-- Digits of a kind without the underscores between them; none if there is no digit, or an
underscore does not stand between two. -/
def ungroup? (isDigit : Char → Bool) : List Char → Option (List Char)
  | [] => none
  | [c] => if isDigit c then some [c] else none
  | c :: '_' :: rest => if isDigit c then (ungroup? isDigit rest).map (c :: ·) else none
  | c :: rest => if isDigit c then (ungroup? isDigit rest).map (c :: ·) else none

/-- The letter that may mark a base, after a zero. -/
def baseMark? (base : Nat) : Option Char :=
  match base with
  | 2 => some 'b'
  | 8 => some 'o'
  | 16 => some 'x'
  | _ => none

/-- What follows the mark of a base, or the whole text if there is none. -/
def dropBaseMark (base : Nat) (body : List Char) : List Char :=
  match body with
  | '0' :: mark :: rest =>
    if baseMark? base == some mark.toLower then
      match rest with
      | '_' :: digits => digits
      | digits => digits
    else body
  | _ => body

def digitIn? (base : Nat) (c : Char) : Option Nat := (hexValue? c).filter (· < base)

/-- The digits at the start of a text without the underscores between them, and what follows them;
none if an underscore does not stand between two digits. -/
def leadingDigits? (isDigit : Char → Bool) (text : List Char) :
    Option (List Char × List Char) :=
  let inRun (c : Char) : Bool := isDigit c || c == '_'
  let digits? := match text.takeWhile inRun with
    | [] => some []
    | run => ungroup? isDigit run
  digits?.map fun digits => (digits, text.dropWhile inRun)

/-- The whole number that characters without white space around them are in a base of at most
sixteen; `shown` is the text as it was given. Only numbers in base ten have a limit on their
length, and it counts even if something else follows the digits. -/
def wholeOfChars (base : Nat) (shown : String) (chars : List Char) : Except NumeralFault Int :=
  let (negative, body) := takeSign chars
  match leadingDigits? (fun c => (digitIn? base c).isSome) (dropBaseMark base body) with
  | none => .error (.notWhole base shown)
  | some (digits, rest) =>
    if base == 10 && digits.length > wholeDigitLimit then .error (.tooManyDigits digits.length)
    else if digits.isEmpty || !rest.isEmpty then .error (.notWhole base shown)
    else
      let n : Nat := digits.foldl (fun n c => n * base + (digitIn? base c).getD 0) 0
      .ok (if negative then -(n : Int) else n)

/-- The whole number that a text holds in a base of at most sixteen. -/
def wholeInBase (base : Nat) (text : String) : Except NumeralFault Int :=
  wholeOfChars base (Text.quoted text) (plainNumeral text)

/-- The whole number that a text holds in base ten. -/
def wholeOfText (text : String) : Except NumeralFault Int := wholeInBase 10 text

def isPlainSpace (c : Char) : Bool := c == ' ' || ('\t' ≤ c && c ≤ '\r')

/-- The whole number that bytes hold in base ten. They are read as ASCII, and nothing beyond it
counts as a space or a digit. -/
def wholeOfBytes (bytes : List UInt8) : Except NumeralFault Int :=
  let front := (bytes.map fun b => Char.ofNat b.toNat).dropWhile isPlainSpace
  wholeOfChars 10 (Text.quotedBytes bytes) (front.reverse.dropWhile isPlainSpace).reverse

/-- The exponent part of a number, with its mark. -/
def exponentOf? : List Char → Option Int
  | [] => some 0
  | mark :: rest =>
    if mark == 'e' || mark == 'E' then
      let (negative, digits) := takeSign rest
      (ungroup? Char.isDigit digits).map fun digits =>
        let n : Int := digitsValue digits
        if negative then -n else n
    else none

/-- A group of digits that may be missing altogether. -/
def optionalGroup? (group : List Char) : Option (List Char) :=
  if group.isEmpty then some [] else ungroup? Char.isDigit group

/-- The parts of an unsigned decimal number. -/
def decimalParts? (negative : Bool) (body : List Char) : Option NumeralParts := do
  let inGroup (c : Char) : Bool := c.isDigit || c == '_'
  let whole ← optionalGroup? (body.takeWhile inGroup)
  let (fraction, tail) ←
    match body.dropWhile inGroup with
    | '.' :: rest => do
      let fraction ← optionalGroup? (rest.takeWhile inGroup)
      pure (fraction, rest.dropWhile inGroup)
    | rest => pure ([], rest)
  let exponent ← exponentOf? tail
  if whole.isEmpty && fraction.isEmpty then none
  else some { negative, whole, fraction, exponent }

/-- The number that a text holds, as a double. -/
def floatOfText (text : String) : Except NumeralFault Float :=
  let (negative, body) := takeSign (plainNumeral text)
  let lower := String.ofList (body.map Char.toLower)
  if lower == "inf" || lower == "infinity" then
    .ok (if negative then -Binary64.infinity else Binary64.infinity)
  else if lower == "nan" then .ok Binary64.notANumber
  else
    match decimalParts? negative body with
    | some parts => .ok parts.toFloat
    | none => .error (.notANumeral text)

end SourceAtlas.Number
