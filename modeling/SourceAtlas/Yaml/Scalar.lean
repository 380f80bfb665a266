/-
# What a plain scalar is

A plain text without a tag is null, a truth value, a number, a date or a point in time if it looks
like one, and otherwise a text.
-/

import SourceAtlas.Data.Display
import SourceAtlas.Number.Numeral
import SourceAtlas.Text.Basic

namespace SourceAtlas.Yaml

/-- The tag of a kind of value. -/
def standardTag (kind : String) : String := "tag:yaml.org,2002:" ++ kind

def textTag : String := standardTag "str"

def sequenceTag : String := standardTag "seq"

def mappingTag : String := standardTag "map"

/-- The tag of the key whose value is merged into a mapping. -/
def mergeTag : String := standardTag "merge"

/-- The tag of the key whose value stands for a mapping. -/
def valueTag : String := standardTag "value"

/-- A digit or an underscore. -/
def isGrouped (isDigit : Char → Bool) (c : Char) : Bool := isDigit c || c == '_'

/-- The text after a sign, if there is one. -/
def unsigned : List Char → List Char
  | '-' :: rest => rest
  | '+' :: rest => rest
  | all => all

def isOctal (c : Char) : Bool := '0' ≤ c && c ≤ '7'

def isHex (c : Char) : Bool := (Number.hexValue? c).isSome

/-- A digit followed by digits and underscores. -/
def isDigitRun : List Char → Bool
  | c :: rest => c.isDigit && rest.all (isGrouped Char.isDigit)
  | [] => false

/-- A part of a number in base sixty: below sixty, in one or two digits. -/
def isSixtieth : List Char → Bool
  | [c] => c.isDigit
  | [c, d] => '0' ≤ c && c ≤ '5' && d.isDigit
  | _ => false

/-- The truth values in words. -/
def truthWords : List (String × Bool) :=
  [("yes", true), ("no", false), ("true", true), ("false", false), ("on", true), ("off", false)]

/-- A word in small letters, capitals, or with one capital in front. -/
def casings (w : String) : List String :=
  [w, w.toUpper, w.capitalize]

def isTruthWord (text : String) : Bool :=
  truthWords.any fun w => (casings w.1).contains text

def isNullWord (text : String) : Bool :=
  text == "" || text == "~" || (casings "null").contains text

/-- Whether a text is a whole number: binary, octal, decimal, hexadecimal, or in base sixty. -/
def isWholeShape (text : List Char) : Bool :=
  match unsigned text with
  | [] => false
  | ['0'] => true
  | '0' :: 'b' :: rest => !rest.isEmpty && rest.all (isGrouped fun c => c == '0' || c == '1')
  | '0' :: 'x' :: rest => !rest.isEmpty && rest.all (isGrouped isHex)
  | '0' :: rest => rest.all (isGrouped isOctal)
  | body =>
    match Text.splitAtChar ':' body with
    | first :: rest => isDigitRun first && rest.all isSixtieth
    | [] => false

/-- An exponent with its sign, or nothing. -/
def isExponentShape : List Char → Bool
  | [] => true
  | mark :: sign :: digits =>
    (mark == 'e' || mark == 'E') && (sign == '-' || sign == '+') && !digits.isEmpty &&
      digits.all Char.isDigit
  | _ => false

/-- The text around its first point. -/
def aroundPoint? (text : List Char) : Option (List Char × List Char) :=
  match text.dropWhile (· != '.') with
  | _ :: rest => some (text.takeWhile (· != '.'), rest)
  | [] => none

/-- Whether what follows a point is a fraction with an exponent or without. -/
def isFractionShape (rest : List Char) : Bool :=
  isExponentShape (rest.dropWhile (isGrouped Char.isDigit))

def isFloatShape (text : List Char) : Bool :=
  let body := unsigned text
  let hasSign := body.length != text.length
  let word := String.ofList body
  if [".inf", ".Inf", ".INF"].contains word then true
  else if [".nan", ".NaN", ".NAN"].contains word then !hasSign
  else
    match aroundPoint? body with
    | none => false
    | some ([], rest) =>
      !hasSign && ((rest.head?).map Char.isDigit).getD false && isFractionShape rest
    | some (whole, rest) =>
      match Text.splitAtChar ':' whole with
      | [only] => isDigitRun only && isFractionShape rest
      | first :: others =>
        isDigitRun first && others.all isSixtieth && rest.all (isGrouped Char.isDigit)
      | [] => false

/-- The texts of the parts of a point in time. -/
structure TimeParts where
  year : List Char
  month : List Char
  day : List Char
  /-- Hour, minute, second and fraction. -/
  clock : Option (List Char × List Char × List Char × List Char)
  /-- The offset from universal time: its sign, hours and minutes. -/
  zone : Option (Bool × List Char × List Char)

/-- One or two digits in front of a text. -/
def shortNumber? : List Char → Option (List Char × List Char)
  | a :: b :: rest =>
    if a.isDigit then
      if b.isDigit then some ([a, b], rest) else some ([a], b :: rest)
    else none
  | [a] => if a.isDigit then some ([a], []) else none
  | [] => none

def twoDigits? : List Char → Option (List Char × List Char)
  | a :: b :: rest => if a.isDigit && b.isDigit then some ([a, b], rest) else none
  | _ => none

/-- This character in front of a text. -/
def after? (c : Char) : List Char → Option (List Char)
  | d :: rest => if c == d then some rest else none
  | [] => none

def isSpaceOrTab (c : Char) : Bool := c == ' ' || c == '\t'

/-- What separates a date from a time. -/
def timeSeparator? : List Char → Option (List Char)
  | c :: rest =>
    if c == 'T' || c == 't' then some rest
    else if isSpaceOrTab c then some (rest.dropWhile isSpaceOrTab)
    else none
  | [] => none

/-- The offset at the end of a point in time, which may be missing. -/
def zone? (text : List Char) : Option (Option (Bool × List Char × List Char)) :=
  match text with
  | [] => some none
  | _ =>
    match text.dropWhile isSpaceOrTab with
    | ['Z'] => some (some (false, ['0'], []))
    | sign :: rest =>
      if sign == '-' || sign == '+' then do
        let (hours, rest) ← shortNumber? rest
        match rest with
        | [] => return some (sign == '-', hours, [])
        | _ => do
          let (minutes, rest) ← twoDigits? (← after? ':' rest)
          if rest.isEmpty then return some (sign == '-', hours, minutes) else none
      else none
    | [] => none

def timeParts? (text : List Char) : Option TimeParts := do
  let year := text.take 4
  if year.length != 4 || !year.all Char.isDigit then none
  let (month, rest) ← shortNumber? (← after? '-' (text.drop 4))
  let (day, rest) ← shortNumber? (← after? '-' rest)
  match rest with
  | [] => return { year, month, day, clock := none, zone := none }
  | _ => do
    let (hour, rest) ← shortNumber? (← timeSeparator? rest)
    let (minute, rest) ← twoDigits? (← after? ':' rest)
    let (second, rest) ← twoDigits? (← after? ':' rest)
    let (fraction, rest) :=
      match rest with
      | '.' :: more => (more.takeWhile Char.isDigit, more.dropWhile Char.isDigit)
      | all => ([], all)
    let zone ← zone? rest
    return { year, month, day, clock := some (hour, minute, second, fraction), zone }

/-- Whether a text is a date or a point in time. A date alone has all its digits. -/
def isTimeShape (text : List Char) : Bool :=
  match timeParts? text with
  | some parts => parts.clock.isSome || (parts.month.length == 2 && parts.day.length == 2)
  | none => false

/-- The tag that a text has by itself. A line break at the end of more text makes no difference. -/
def implicitTag (text : String) : String :=
  let chars := Text.withoutFinalBreak text.toList
  let word := String.ofList chars
  if isTruthWord word then standardTag "bool"
  else if isFloatShape chars then standardTag "float"
  else if isWholeShape chars then standardTag "int"
  else if word == "<<" then mergeTag
  else if isNullWord word && text != "\n" then standardTag "null"
  else if isTimeShape chars then standardTag "timestamp"
  else if word == "=" then valueTag
  else textTag

end SourceAtlas.Yaml
