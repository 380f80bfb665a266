/-
# JSON values

A JSON value with its numbers kept apart by kind and its object members in the order in which they
were first given. An object never holds a key twice: a later member replaces the value of an earlier
one in place.
-/

import SourceAtlas.Number.Decimal

namespace SourceAtlas

/-- A JSON value. -/
inductive Json where
  | null
  | bool (b : Bool)
  | number (n : Number)
  | text (s : String)
  | array (items : List Json)
  | object (members : List (String × Json))

namespace Json

def int (n : Int) : Json := .number (.int n)

def nat (n : Nat) : Json := .number (.int n)

def float (x : Float) : Json := .number (.float x)

def optionalText : Option String → Json
  | none => .null
  | some s => .text s

def texts (items : List String) : Json := .array (items.map .text)

def member? (key : String) : Json → Option Json
  | .object members => members.lookup key
  | _ => none

/-- Sets a member: a known key keeps its place and gets the new value, a new key comes last. -/
def setMember (members : List (String × Json)) (key : String) (value : Json) :
    List (String × Json) :=
  if members.any (·.1 == key) then
    members.map fun m => if m.1 == key then (key, value) else m
  else members ++ [(key, value)]

/-- The members of an object text, where the last value given to a key counts. -/
def collectMembers (members : List (String × Json)) : List (String × Json) :=
  members.foldl (fun seen m => setMember seen m.1 m.2) []

end Json

end SourceAtlas
