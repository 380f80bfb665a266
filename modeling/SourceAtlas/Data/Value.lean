/-
# Values of configuration files

What a configuration file can hold under a key. Values from JSON are null, truth values, numbers,
texts, lists and mappings with texts as keys; a YAML file can hold dates, points in time, bytes,
sets, mappings with other keys, and collections that hold themselves.
-/

import SourceAtlas.Json.Basic

namespace SourceAtlas

structure Date where
  year : Nat
  month : Nat
  day : Nat
deriving DecidableEq, Repr

/-- A point in time, with the distance of its clock from universal time in seconds, if known. -/
structure Timestamp where
  date : Date
  hour : Nat
  minute : Nat
  second : Nat
  microsecond : Nat
  offset : Option Int
deriving DecidableEq, Repr

/-- The shapes of values that may stand inside of themselves. -/
inductive Shape where
  | list
  | pair
  | mapping
deriving DecidableEq, Repr

/-- A value of a configuration file. -/
inductive Value where
  | null
  | bool (b : Bool)
  | number (n : Number)
  | text (s : String)
  | bytes (b : List UInt8)
  | date (d : Date)
  | timestamp (t : Timestamp)
  | list (items : List Value)
  /-- A key with its value, as an item of a list. -/
  | pair (key value : Value)
  | mapping (entries : List (Value × Value))
  /-- The members of a set. -/
  | set (members : List Value)
  /-- A value again, somewhere inside of itself. -/
  | again (shape : Shape)

namespace Value

mutual

def ofJson : Json → Value
  | .null => .null
  | .bool b => .bool b
  | .number n => .number n
  | .text s => .text s
  | .array items => .list (ofJsonItems items)
  | .object members => .mapping (ofJsonMembers members)

def ofJsonItems : List Json → List Value
  | [] => []
  | item :: rest => ofJson item :: ofJsonItems rest

def ofJsonMembers : List (String × Json) → List (Value × Value)
  | [] => []
  | (key, value) :: rest => (.text key, ofJson value) :: ofJsonMembers rest

end

def isText (s : String) : Value → Bool
  | .text t => t == s
  | _ => false

/-- The value under a text in the entries of a mapping. -/
def entry? (key : String) (entries : List (Value × Value)) : Option Value :=
  (entries.find? fun e => e.1.isText key).map Prod.snd

/-- Whether a value counts as true: anything but null, zero and what is empty. -/
def isTruthy : Value → Bool
  | .null => false
  | .bool b => b
  | .number n => !n.eq (.int 0)
  | .text s => s != ""
  | .bytes b => !b.isEmpty
  | .date _ | .timestamp _ | .pair _ _ | .again _ => true
  | .list items => !items.isEmpty
  | .mapping entries => !entries.isEmpty
  | .set members => !members.isEmpty

/-- The items of a value that has some: those of a list or set, the keys of a mapping, the
characters of a text, the numbers of bytes. -/
def items? : Value → Option (List Value)
  | .list items => some items
  | .pair key value => some [key, value]
  | .mapping entries => some (entries.map Prod.fst)
  | .set members => some members
  | .text s => some (s.toList.map fun c => .text (String.ofList [c]))
  | .bytes b => some (b.map fun x => .number (.int x.toNat))
  | _ => none

end Value

end SourceAtlas
