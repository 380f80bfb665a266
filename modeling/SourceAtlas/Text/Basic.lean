/-
# Characters and lines

Which characters count as blank, which are decimal digits, and how other classes of characters are
looked up; and how a text falls into lines. A line ends at a line feed and at nothing else: the
other line separators of Unicode, and a lone carriage return, stand inside a line.
-/

namespace SourceAtlas.Text

/-- White space, wherever text is trimmed, split or skipped. The class is wider than the ASCII one:
it holds every white-space character of Unicode and the information separators U+001C to U+001F. -/
def isBlank (c : Char) : Bool :=
  let n := c.toNat
  (9 ≤ n && n ≤ 13) || (0x1C ≤ n && n ≤ 0x20) || n == 0x85 || n == 0xA0 || n == 0x1680 ||
    (0x2000 ≤ n && n ≤ 0x200A) || n == 0x2028 || n == 0x2029 || n == 0x202F || n == 0x205F ||
    n == 0x3000

/-- The digits zero of all scripts (Unicode version 14), in ascending order. The digits of a script
come in a run of ten, so the zeros tell a digit and its value. -/
def digitZeros : List Nat :=
  [
    0x30, 0x660, 0x6F0, 0x7C0, 0x966, 0x9E6, 0xA66, 0xAE6, 0xB66, 0xBE6, 0xC66, 0xCE6, 0xD66, 0xDE6,
    0xE50, 0xED0, 0xF20, 0x1040, 0x1090, 0x17E0, 0x1810, 0x1946, 0x19D0, 0x1A80, 0x1A90, 0x1B50,
    0x1BB0, 0x1C40, 0x1C50, 0xA620, 0xA8D0, 0xA900, 0xA9D0, 0xA9F0, 0xAA50, 0xABF0, 0xFF10, 0x104A0,
    0x10D30, 0x11066, 0x110F0, 0x11136, 0x111D0, 0x112F0, 0x11450, 0x114D0, 0x11650, 0x116C0,
    0x11730, 0x118E0, 0x11950, 0x11C50, 0x11D50, 0x11DA0, 0x16A60, 0x16AC0, 0x16B50, 0x1D7CE,
    0x1D7D8, 0x1D7E2, 0x1D7EC, 0x1D7F6, 0x1E140, 0x1E2F0, 0x1E950, 0x1FBF0
  ]

def digitValue? (c : Char) : Option Nat :=
  let n := c.toNat
  (digitZeros.find? fun first => first ≤ n && n < first + 10).map fun first => n - first

/-- Looks for the range that holds `n` among the ranges from `low` up to `high`, by halving. The
ranges include both ends and stand in ascending order. -/
def rangeHolds (ranges : Array (Nat × Nat)) (n : Nat) : Nat → Nat → Nat → Bool
  | 0, _, _ => false
  | fuel + 1, low, high =>
    if high ≤ low then false
    else
      let middle := (low + high) / 2
      match ranges[middle]? with
      | none => false
      | some (first, last) =>
        if n < first then rangeHolds ranges n fuel low middle
        else if last < n then rangeHolds ranges n fuel (middle + 1) high
        else true

def isInRanges (ranges : Array (Nat × Nat)) (c : Char) : Bool :=
  rangeHolds ranges c.toNat 32 0 ranges.size

def lineFeeds (s : List Char) : Nat :=
  s.countP (· == '\n')

/-- How many lines a text has. The empty text has none, and a line feed at the very end does not
start another line. -/
def lineCount (s : String) : Nat :=
  match s.toList.getLast? with
  | none => 0
  | some '\n' => lineFeeds s.toList
  | some _ => lineFeeds s.toList + 1

/-- Reads every line end the same way: a carriage return, alone or before a line feed, becomes one
line feed. -/
def uniformLines (s : List Char) : List Char :=
  go s []
where
  /-- What is read so far stands in reverse in the second argument. -/
  go : List Char → List Char → List Char
    | '\r' :: '\n' :: rest, done => go rest ('\n' :: done)
    | '\r' :: rest, done => go rest ('\n' :: done)
    | c :: rest, done => go rest (c :: done)
    | [], done => done.reverse

/-- The texts between the occurrences of a character; there is always at least one. -/
def splitAtChar (sep : Char) : List Char → List (List Char)
  | [] => [[]]
  | c :: rest =>
    match splitAtChar sep rest with
    | [] => [[c]]
    | piece :: pieces => if c == sep then [] :: piece :: pieces else (c :: piece) :: pieces

def withoutFinalBreak (text : List Char) : List Char :=
  if text.getLast? == some '\n' then text.dropLast else text

end SourceAtlas.Text
