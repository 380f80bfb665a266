/-
# Writing JSON

JSON text in three styles: one line with every non-ASCII character escaped, the same with sorted
keys (the form that is hashed), and indented over several lines. Text is escaped character by
character, a character outside the basic plane as a pair of surrogates.
-/

import SourceAtlas.Json.Basic

namespace SourceAtlas.Json

def hex4 (n : Nat) : List Char :=
  let digits := Nat.toDigits 16 n
  List.replicate (4 - digits.length) '0' ++ digits

/-- The escape of one sixteen-bit unit. -/
def unitEscape (n : Nat) : List Char :=
  '\\' :: 'u' :: hex4 n

/-- One character inside a JSON string; `ascii` asks for escapes outside ASCII as well. -/
def escapeChar (ascii : Bool) (c : Char) : List Char :=
  if c == '"' then ['\\', '"']
  else if c == '\\' then ['\\', '\\']
  else if c == '\n' then ['\\', 'n']
  else if c == '\r' then ['\\', 'r']
  else if c == '\t' then ['\\', 't']
  else if c == '\x08' then ['\\', 'b']
  else if c == '\x0c' then ['\\', 'f']
  else
    let n := c.toNat
    if n < 0x20 then unitEscape n
    else if n < 0x7F then [c]
    else if !ascii then [c]
    else if n < 0x10000 then unitEscape n
    else
      let offset := n - 0x10000
      unitEscape (0xD800 + offset / 0x400) ++ unitEscape (0xDC00 + offset % 0x400)

def quote (ascii : Bool) (s : String) : List Char :=
  '"' :: (s.toList.flatMap (escapeChar ascii) ++ ['"'])

/-- How JSON text is laid out. -/
structure Layout where
  /-- Whether every character outside ASCII is escaped. -/
  ascii : Bool
  /-- Whether members are written in the order of their keys. -/
  sorted : Bool
  /-- The width of one level of indentation; none for text on one line. -/
  indent : Option Nat

/-- One line, members in the order of their keys. -/
def canonical : Layout := ⟨true, true, none⟩

/-- Several lines, two spaces for each level. -/
def indented : Layout := ⟨true, false, some 2⟩

/-- One line with characters as they are. -/
def verbatim : Layout := ⟨false, false, none⟩

/-- The line break before an item at a depth. -/
def Layout.breakAt (layout : Layout) (depth : Nat) : List Char :=
  match layout.indent with
  | none => []
  | some width => '\n' :: List.replicate (width * depth) ' '

/-- What stands between two items at a depth. -/
def Layout.separator (layout : Layout) (depth : Nat) : List Char :=
  match layout.indent with
  | none => [',', ' ']
  | some _ => ',' :: layout.breakAt depth

/-- Brackets around items already written; brackets around nothing stay together. -/
def Layout.enclose (layout : Layout) (depth : Nat) (opening closing : Char)
    (items : List (List Char)) : List Char :=
  match items with
  | [] => [opening, closing]
  | items =>
    opening :: layout.breakAt (depth + 1) ++
      List.intercalate (layout.separator (depth + 1)) items ++ layout.breakAt depth ++ [closing]

/-- Members in the order of their keys, by code points. -/
def sortMembers {α : Type} (members : List (String × α)) : List (String × α) :=
  members.mergeSort fun a b => !(b.1 < a.1)

mutual

/-- A value at a depth. -/
def render (layout : Layout) (depth : Nat) : Json → List Char
  | .null => "null".toList
  | .bool true => "true".toList
  | .bool false => "false".toList
  | .number n => (n.text Number.jsonFormat).toList
  | .text s => quote layout.ascii s
  | .array items => layout.enclose depth '[' ']' (renderItems layout (depth + 1) items)
  | .object members =>
    let written := renderMembers layout (depth + 1) members
    let ordered := if layout.sorted then sortMembers written else written
    layout.enclose depth '\x7b' '\x7d'
      (ordered.map fun m => quote layout.ascii m.1 ++ ':' :: ' ' :: m.2)

def renderItems (layout : Layout) (depth : Nat) : List Json → List (List Char)
  | [] => []
  | item :: rest => render layout depth item :: renderItems layout depth rest

def renderMembers (layout : Layout) (depth : Nat) :
    List (String × Json) → List (String × List Char)
  | [] => []
  | (key, value) :: rest => (key, render layout depth value) :: renderMembers layout depth rest

end

/-- A value as JSON text. -/
def write (layout : Layout) (value : Json) : String :=
  String.ofList (render layout 0 value)

end SourceAtlas.Json
