/-
# Decimal text

Doubles are written with the fewest digits that read back, in positional notation for moderate
exponents and in exponent notation beyond them. Reading takes the double nearest to the decimal.
-/

import SourceAtlas.Number.Basic

namespace SourceAtlas.Number

open Binary64

/-- How a format writes doubles. -/
structure FloatFormat where
  /-- The least decimal exponent written positionally. -/
  lowest : Int
  /-- The first decimal exponent that is too large to be written positionally. -/
  beyond : Int
  /-- The least number of digits of a written exponent. -/
  exponentDigits : Nat
  notANumber : String
  infinity : String

/-- The format of values shown as text. -/
def plainFormat : FloatFormat :=
  { lowest := -4, beyond := 16, exponentDigits := 2, notANumber := "nan", infinity := "inf" }

/-- The format of numbers inside JSON text. -/
def jsonFormat : FloatFormat :=
  { plainFormat with notANumber := "NaN", infinity := "Infinity" }

def natDigits (n : Nat) : List Char :=
  Nat.toDigits 10 n

/-- A natural number in decimal with at least `width` digits. -/
def paddedDigits (width n : Nat) : List Char :=
  let digits := natDigits n
  List.replicate (width - digits.length) '0' ++ digits

/-- Digits with a point after the first `point` of them; a whole number gets a zero after it. -/
def positional (digits : List Char) (point : Int) : List Char :=
  if point ≤ 0 then "0.".toList ++ List.replicate (-point).toNat '0' ++ digits
  else if (digits.length : Int) ≤ point then
    digits ++ List.replicate (point.toNat - digits.length) '0' ++ ".0".toList
  else digits.take point.toNat ++ '.' :: digits.drop point.toNat

/-- Digits with a point after the first of them and an exponent. -/
def exponential (format : FloatFormat) (digits : List Char) (exponent : Int) : List Char :=
  let mantissa :=
    match digits with
    | [] => []
    | [d] => [d]
    | d :: rest => d :: '.' :: rest
  let sign := if exponent < 0 then '-' else '+'
  mantissa ++ 'e' :: sign :: paddedDigits format.exponentDigits exponent.natAbs

def floatText (format : FloatFormat) (x : Float) : String :=
  if x.isNaN then format.notANumber
  else
    let sign := if signBit x then ['-'] else []
    let body :=
      if x.isInf then format.infinity.toList
      else
        let decimal := shortest x
        let digits := natDigits decimal.digits
        let point : Int := digits.length + decimal.exponent
        if format.lowest ≤ point - 1 && point - 1 < format.beyond then positional digits point
        else exponential format digits (point - 1)
    String.ofList (sign ++ body)

def intText (n : Int) : String :=
  if n < 0 then String.ofList ('-' :: natDigits n.natAbs) else String.ofList (natDigits n.natAbs)

def text (format : FloatFormat) : Number → String
  | .int n => intText n
  | .float x => floatText format x

/-- The double nearest to `digits * 10 ^ exponent`. Exponents far outside the range of doubles are
settled by the number of digits alone. -/
def floatOfDecimal (negative : Bool) (digits : Nat) (exponent : Int) : Float :=
  let top : Int := digitCount digits + exponent
  if digits == 0 then nearest negative 0 1
  else if top > 320 then nearest negative (Nat.pow 2 1024) 1
  else if top < -340 then nearest negative 0 1
  else nearest negative (digits * Nat.pow 10 exponent.toNat) (Nat.pow 10 (-exponent).toNat)

def hexValue? (c : Char) : Option Nat :=
  if '0' ≤ c && c ≤ '9' then some (c.toNat - '0'.toNat)
  else if 'a' ≤ c && c ≤ 'f' then some (c.toNat - 'a'.toNat + 10)
  else if 'A' ≤ c && c ≤ 'F' then some (c.toNat - 'A'.toNat + 10)
  else none

def digitsValue (digits : List Char) : Nat :=
  digits.foldl (fun n c => n * 10 + (c.toNat - '0'.toNat)) 0

/-- A number text split into its parts, all digits in ASCII. -/
structure NumeralParts where
  negative : Bool
  whole : List Char
  fraction : List Char
  exponent : Int

/-- The double nearest to a split number text. -/
def NumeralParts.toFloat (p : NumeralParts) : Float :=
  floatOfDecimal p.negative (digitsValue (p.whole ++ p.fraction)) (p.exponent - p.fraction.length)

/-- The most digits that the text of a whole number may have. -/
def wholeDigitLimit : Nat := 4300

/-- What is said about a whole number with too many digits; their count is given if it is known. -/
def wholeDigitLimitMessage (count : Option Nat) : String :=
  let counted := (count.map fun n => s!": value has {n} digits").getD ""
  s!"Exceeds the limit ({wholeDigitLimit} digits) for integer string conversion{counted}; " ++
    "use sys.set_int_max_str_digits() to increase the limit"

/-- Whether a whole number has too many digits to be written out. -/
def isTooLong : Number → Bool
  | .int n => digitCount n.natAbs > wholeDigitLimit
  | .float _ => false

end SourceAtlas.Number
