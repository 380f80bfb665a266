/-
# Strict reports

A report is put together from values of any depth, with tuples besides lists. JSON has no spelling
for infinities and for what is no number. A report is strict if it holds none of them, and any
report becomes strict when they are replaced by null. On the way every tuple becomes a list, which
is the one kind of sequence that JSON has.
-/

import SourceAtlas.Json.Basic

namespace SourceAtlas

/-- Whether a number has a spelling in JSON. -/
def Json.isSpellable : Number → Bool
  | .int _ => true
  | .float x => x.isFinite

/-- A value of a report. -/
inductive Report where
  | null
  | bool (b : Bool)
  | number (n : Number)
  | text (s : String)
  | list (items : List Report)
  | tuple (items : List Report)
  | record (members : List (String × Report))

namespace Report

mutual

/-- The report with null in the place of every number that JSON cannot spell. -/
def strict : Report → Report
  | .number n => if Json.isSpellable n then .number n else .null
  | .list items => .list (strictItems items)
  | .tuple items => .list (strictItems items)
  | .record members => .record (strictMembers members)
  | .null => .null
  | .bool b => .bool b
  | .text s => .text s

def strictItems : List Report → List Report
  | [] => []
  | item :: rest => strict item :: strictItems rest

def strictMembers : List (String × Report) → List (String × Report)
  | [] => []
  | (key, value) :: rest => (key, strict value) :: strictMembers rest

end

mutual

def ofJson : Json → Report
  | .null => .null
  | .bool b => .bool b
  | .number n => .number n
  | .text s => .text s
  | .array items => .list (ofJsonItems items)
  | .object members => .record (ofJsonMembers members)

def ofJsonItems : List Json → List Report
  | [] => []
  | item :: rest => ofJson item :: ofJsonItems rest

def ofJsonMembers : List (String × Json) → List (String × Report)
  | [] => []
  | (key, value) :: rest => (key, ofJson value) :: ofJsonMembers rest

end

mutual

def toJson : Report → Json
  | .null => .null
  | .bool b => .bool b
  | .number n => .number n
  | .text s => .text s
  | .list items => .array (toJsonItems items)
  | .tuple items => .array (toJsonItems items)
  | .record members => .object (toJsonMembers members)

def toJsonItems : List Report → List Json
  | [] => []
  | item :: rest => toJson item :: toJsonItems rest

def toJsonMembers : List (String × Report) → List (String × Json)
  | [] => []
  | (key, value) :: rest => (key, toJson value) :: toJsonMembers rest

end

end Report

/-- The value with null in the place of every number that JSON cannot spell. -/
def Json.strict (value : Json) : Json := (Report.ofJson value).strict.toJson

end SourceAtlas
