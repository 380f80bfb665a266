/-
# Values of scalars

What a scalar is worth under each of the tags for scalars: whole numbers, numbers with a point,
truth values, dates and points in time, and bytes.
-/

import SourceAtlas.Text.LowerCase
import SourceAtlas.Yaml.Fault
import SourceAtlas.Yaml.Scalar

namespace SourceAtlas.Yaml

/-- A whole number in a base. -/
def wholeIn (base : Nat) (text : List Char) : Except ScalarFault Int :=
  (Number.wholeInBase base (String.ofList text)).mapError .numeral

/-- The sum of parts in base sixty, the last one counting once. -/
def sixties (parts : List Int) : Int := parts.foldl (fun total part => total * 60 + part) 0

def wholeValue (text : String) : Except ScalarFault Int := do
  let chars := text.toList.filter (· != '_')
  let (negative, body) := Number.takeSign chars
  let n ← match body with
    | [] => throw .emptyNumeral
    | ['0'] => pure 0
    | '0' :: 'b' :: rest => wholeIn 2 rest
    | '0' :: 'x' :: rest => wholeIn 16 rest
    | '0' :: _ => wholeIn 8 body
    | _ =>
      if body.contains ':' then do
        let parts ← (Text.splitAtChar ':' body).mapM (wholeIn 10)
        pure (sixties parts)
      else wholeIn 10 body
  return if negative then -n else n

def doubleOf (text : List Char) : Except ScalarFault Float :=
  (Number.floatOfText (String.ofList text)).mapError .numeral

/-- The sum of parts in base sixty, from the last one to the first. Each place is a whole number,
and one that is too large for a double is a fault. -/
def sixtiesFloat (parts : List Float) : Except ScalarFault Float := do
  let add (state : Float × Nat) (part : Float) : Except ScalarFault (Float × Nat) := do
    match Number.floatOfInt state.2 with
    | .ok place => return (state.1 + part * place, state.2 * 60)
    | .error _ => throw .tooLarge
  let (total, _) ← parts.reverse.foldlM add (0.0, 1)
  return total

/-- A number with a point. A number that is none is the same one wherever it is written with a point
in front, and another one each time if it is written as a word. -/
structure Fractional where
  value : Float
  /-- Whether it is the one number that is none. -/
  isCommonNaN : Bool := false

def floatValue (text : String) : Except ScalarFault Fractional := do
  let chars := Text.lowerCase (text.toList.filter (· != '_'))
  if chars.isEmpty then throw .emptyNumeral
  let (negative, body) := Number.takeSign chars
  let word := String.ofList body
  let signed (x : Float) : Fractional := { value := if negative then -x else x }
  if word == ".inf" then return signed Binary64.infinity
  else if word == ".nan" then return { value := Binary64.notANumber, isCommonNaN := true }
  else if body.contains ':' then do
    let parts ← (Text.splitAtChar ':' body).mapM doubleOf
    let x ← sixtiesFloat parts
    return signed x
  else do
    let x ← doubleOf body
    return signed x

def truthValue (text : String) : Except ScalarFault Bool :=
  match truthWords.lookup text.toLower with
  | some b => .ok b
  | none => .error (.unknownTruth text)

def isLeapYear (year : Nat) : Bool :=
  year % 4 == 0 && (year % 100 != 0 || year % 400 == 0)

def daysInMonth (year month : Nat) : Nat :=
  if month == 2 then (if isLeapYear year then 29 else 28)
  else if [4, 6, 9, 11].contains month then 30
  else 31

/-- Refuses days that do not exist. -/
def checkDate (d : Date) : Except ScalarFault Date := do
  if d.year == 0 then throw (.calendar "year 0 is out of range")
  if d.month == 0 || d.month > 12 then throw (.calendar "month must be in 1..12")
  if d.day == 0 || d.day > daysInMonth d.year d.month then
    throw (.calendar "day is out of range for month")
  return d

/-- The seconds of an offset, which is less than a day. -/
def offsetSeconds (negative : Bool) (hours minutes : Nat) : Except ScalarFault Int := do
  let size : Int := 3600 * hours + 60 * minutes
  let seconds := if negative then -size else size
  if size ≥ 86400 then
    throw (.calendar ("offset must be a timedelta strictly between -timedelta(hours=24) and " ++
      s!"timedelta(hours=24), not {Value.durationForm seconds}."))
  return seconds

/-- The first six digits of a fraction, filled up with zeros. -/
def microseconds (fraction : List Char) : Nat :=
  Number.digitsValue ((fraction ++ List.replicate 6 '0').take 6)

/-- The value of a date or point in time. -/
def timeValue (text : String) : Except ScalarFault Value := do
  match timeParts? (Text.withoutFinalBreak text.toList) with
  | none => throw (.notATime text)
  | some parts =>
    let number := Number.digitsValue
    let date : Date :=
      { year := number parts.year, month := number parts.month, day := number parts.day }
    match parts.clock with
    | none => return .date (← checkDate date)
    | some (hour, minute, second, fraction) =>
      let offset ← match parts.zone with
        | none => pure none
        | some (negative, hours, minutes) => do
          let seconds ← offsetSeconds negative (number hours) (number minutes)
          pure (some seconds)
      let date ← checkDate date
      let t : Timestamp :=
        { date, hour := number hour, minute := number minute, second := number second
          microsecond := microseconds fraction, offset }
      if t.hour > 23 then throw (.calendar "hour must be in 0..23")
      if t.minute > 59 then throw (.calendar "minute must be in 0..59")
      if t.second > 59 then throw (.calendar "second must be in 0..59")
      return .timestamp t

/-- The value of a character in base sixty-four. -/
def sixtyFourValue? (c : Char) : Option Nat :=
  if 'A' ≤ c && c ≤ 'Z' then some (c.toNat - 'A'.toNat)
  else if 'a' ≤ c && c ≤ 'z' then some (c.toNat - 'a'.toNat + 26)
  else if c.isDigit then some (c.toNat - '0'.toNat + 52)
  else if c == '+' then some 62
  else if c == '/' then some 63
  else none

/-- The bytes of groups of four values of six bits. -/
def sixBitBytes : List Nat → Option (List UInt8)
  | a :: b :: c :: d :: rest => do
    let n := ((a * 64 + b) * 64 + c) * 64 + d
    let more ← sixBitBytes rest
    return UInt8.ofNat (n / 65536) :: UInt8.ofNat (n / 256 % 256) :: UInt8.ofNat (n % 256) :: more
  | [a, b, c] =>
    let n := (a * 64 + b) * 64 + c
    some [UInt8.ofNat (n / 1024), UInt8.ofNat (n / 4 % 256)]
  | [a, b] => some [UInt8.ofNat ((a * 64 + b) / 16)]
  | [_] => none
  | [] => some []

/-- The six-bit values of a text in base sixty-four, from those before it. Characters that mean
nothing are skipped. The text ends where equals signs fill up a group of four; without them the last
group is whole. -/
def sixBitValues? : List Char → List Nat → Nat → Option (List Nat)
  | [], found, _ => if found.length % 4 == 0 then some found else none
  | '=' :: rest, found, fill =>
    let place := found.length % 4
    if place < 2 then sixBitValues? rest found fill
    else if place + fill + 1 ≥ 4 then some found
    else sixBitValues? rest found (fill + 1)
  | c :: rest, found, fill =>
    match sixtyFourValue? c with
    | some n => sixBitValues? rest (found ++ [n]) 0
    | none => sixBitValues? rest found fill

def bytesValue? (text : String) : Option (List UInt8) :=
  let chars := text.toList
  if chars.any fun c => c.toNat ≥ 128 then none else (sixBitValues? chars [] 0).bind sixBitBytes

end SourceAtlas.Yaml
