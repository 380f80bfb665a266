/-
# Values as text

A value on its own is shown plainly, a text as itself. Inside a list or mapping every value is
shown in a form that tells texts from other values. A whole number with too many digits is not
shown at all.
-/

import SourceAtlas.Data.Value
import SourceAtlas.Number.Decimal
import SourceAtlas.Text.Quoted

namespace SourceAtlas.Value

/-- A number with leading zeros. -/
def digits (width n : Nat) : String := String.ofList (Number.paddedDigits width n)

def dateText (d : Date) : String :=
  s!"{digits 4 d.year}-{digits 2 d.month}-{digits 2 d.day}"

/-- The distance from universal time as hours and minutes. -/
def offsetText (seconds : Int) : String :=
  let sign := if seconds < 0 then "-" else "+"
  let minutes := seconds.natAbs / 60
  s!"{sign}{digits 2 (minutes / 60)}:{digits 2 (minutes % 60)}"

/-- A point in time as date, time and offset. -/
def timestampText (t : Timestamp) : String :=
  let fraction := if t.microsecond == 0 then "" else "." ++ digits 6 t.microsecond
  let offset := (t.offset.map offsetText).getD ""
  let time := s!"{digits 2 t.hour}:{digits 2 t.minute}:{digits 2 t.second}"
  s!"{dateText t.date} {time}{fraction}{offset}"

/-- A date between other values. -/
def dateForm (d : Date) : String := s!"datetime.date({d.year}, {d.month}, {d.day})"

/-- A length of time between other values. -/
def durationForm (seconds : Int) : String :=
  let days := seconds.fdiv 86400
  let rest := seconds - 86400 * days
  let dayPart := if days == 0 then [] else [s!"days={Number.intText days}"]
  let restPart := if rest == 0 then [] else [s!"seconds={Number.intText rest}"]
  let inside := if days == 0 && rest == 0 then "0" else ", ".intercalate (dayPart ++ restPart)
  s!"datetime.timedelta({inside})"

/-- A clock between other values. -/
def offsetForm (seconds : Int) : String :=
  if seconds == 0 then "datetime.timezone.utc"
  else s!"datetime.timezone({durationForm seconds})"

/-- A point in time between other values. Seconds and fractions are left out if they are zero. -/
def timestampForm (t : Timestamp) : String :=
  let numbers := [t.date.year, t.date.month, t.date.day, t.hour, t.minute] ++
    (if t.second == 0 && t.microsecond == 0 then [] else [t.second]) ++
    (if t.microsecond == 0 then [] else [t.microsecond])
  let zone := (t.offset.map fun s => ["tzinfo=" ++ offsetForm s]).getD []
  let inside := ", ".intercalate (numbers.map (digits 1) ++ zone)
  s!"datetime.datetime({inside})"

mutual

/-- A value between other values. -/
def form : Value → String
  | .null => "None"
  | .bool b => if b then "True" else "False"
  | .number n => n.text Number.plainFormat
  | .text s => Text.quoted s
  | .bytes b => Text.quotedBytes b
  | .date d => dateForm d
  | .timestamp t => timestampForm t
  | .list items => "[" ++ ", ".intercalate (forms items) ++ "]"
  | .pair key value => "(" ++ form key ++ ", " ++ form value ++ ")"
  | .mapping entries => "\x7b" ++ ", ".intercalate (entryForms entries) ++ "\x7d"
  | .set members =>
    match forms members with
    | [] => "set()"
    | shown => "\x7b" ++ ", ".intercalate shown ++ "\x7d"
  | .again .list => "[...]"
  | .again .pair => "(...)"
  | .again .mapping => "\x7b...\x7d"

def forms : List Value → List String
  | [] => []
  | item :: rest => form item :: forms rest

def entryForms : List (Value × Value) → List String
  | [] => []
  | (key, value) :: rest => (form key ++ ": " ++ form value) :: entryForms rest

end

mutual

/-- Whether a value holds a whole number with too many digits to be shown. -/
def hasLongNumber : Value → Bool
  | .number n => n.isTooLong
  | .list items => anyLongNumber items
  | .pair key value => hasLongNumber key || hasLongNumber value
  | .mapping entries => anyLongEntry entries
  | .set members => anyLongNumber members
  | _ => false

def anyLongNumber : List Value → Bool
  | [] => false
  | item :: rest => hasLongNumber item || anyLongNumber rest

def anyLongEntry : List (Value × Value) → Bool
  | [] => false
  | (key, value) :: rest => hasLongNumber key || hasLongNumber value || anyLongEntry rest

end

/-- A value on its own. -/
def display : Value → String
  | .text s => s
  | .date d => dateText d
  | .timestamp t => timestampText t
  | v => form v

end SourceAtlas.Value
