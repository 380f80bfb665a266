/-
# Patterns of one segment

A pattern of one segment of a path: `*` stands for any characters, `?` for one character and a set
between brackets for one of its members, or for none of them if it starts with `!`. A bracket that
is never closed stands for itself.

Matching is done for rows of any items. Most wanted items stand for exactly one given item; a
wildcard stands for any number of them. For every rest of the wanted row it is noted whether it fits
the rest of the given one, and the notes are carried from the end of the given row to its start, so
the work grows with the product of the lengths and no more.
-/

namespace SourceAtlas.Glob

section Rows

variable {α β : Type}

/-- For every rest of the wanted row, whether it fits nothing at all. -/
def emptyFits (isWildcard : α → Bool) : List α → List Bool
  | [] => [true]
  | a :: rest =>
    let notes := emptyFits isWildcard rest
    (isWildcard a && notes.headD false) :: notes

/-- For every rest of the wanted row, whether it fits an item and what follows it, given the same
for what follows it. -/
def stepFits (isWildcard : α → Bool) (accepts : α → β → Bool) (b : β) :
    List α → List Bool → List Bool
  | [], _ => [false]
  | a :: rest, notes =>
    let others := stepFits isWildcard accepts b rest notes.tail
    let first :=
      if isWildcard a then others.headD false || notes.headD false
      else accepts a b && notes.tail.headD false
    first :: others

/-- Whether a wanted row fits a given one. -/
def fits (isWildcard : α → Bool) (accepts : α → β → Bool) (wanted : List α) (given : List β) :
    Bool :=
  (given.foldr (fun b notes => stepFits isWildcard accepts b wanted notes)
    (emptyFits isWildcard wanted)).headD false

end Rows

/-- A piece of a segment pattern. -/
inductive Piece where
  | literal (c : Char)
  /-- Any one character. -/
  | one
  /-- Any number of characters. -/
  | run
  /-- A character in one of the ranges, or in none of them. -/
  | oneOf (negated : Bool) (ranges : List (Char × Char))
deriving DecidableEq, Repr

/-- The members of a set and what follows its closing bracket. A closing bracket that comes first
is a member. -/
def setBody? (rest : List Char) : Option (List Char × List Char) :=
  let (mark, rest) :=
    match rest with
    | '!' :: more => (['!'], more)
    | all => ([], all)
  let (first, rest) :=
    match rest with
    | ']' :: more => ([']'], more)
    | all => ([], all)
  match rest.dropWhile (· != ']') with
  | [] => none
  | _ :: after => some (mark ++ first ++ rest.takeWhile (· != ']'), after)

/-- Cuts the members of a set at the hyphens that make ranges. A hyphen makes a range only if enough
other characters stand before it since the last one; `wait` counts them down. -/
def cutAtHyphens : Nat → List Char → List Char → List (List Char)
  | _, chunk, [] => [chunk.reverse]
  | wait + 1, chunk, c :: rest => cutAtHyphens wait (c :: chunk) rest
  | 0, chunk, c :: rest =>
    if c == '-' then chunk.reverse :: cutAtHyphens 2 [] rest else cutAtHyphens 0 (c :: chunk) rest

/-- A hyphen at the very end makes no range. -/
def keepLastHyphen : List (List Char) → List (List Char)
  | [] => []
  | [chunk, []] => [chunk ++ ['-']]
  | chunk :: rest => chunk :: keepLastHyphen rest

/-- Removes the ranges that run backwards, with both of their ends. -/
def dropBackwardRanges : List (List Char) → List (List Char)
  | [] => []
  | chunk :: rest =>
    match chunk.getLast?, dropBackwardRanges rest with
    | some low, (high :: tail) :: others =>
      if high < low then (chunk.dropLast ++ tail) :: others
      else chunk :: (high :: tail) :: others
    | _, others => chunk :: others

/-- The members of a set one after the other; a hyphen that makes a range is nothing. -/
def setItems : List (List Char) → List (Option Char)
  | [] => []
  | [chunk] => chunk.map some
  | chunk :: rest => chunk.map some ++ none :: setItems rest

def setRanges : List (Option Char) → List (Char × Char)
  | some low :: none :: some high :: rest => (low, high) :: setRanges rest
  | some c :: rest => (c, c) :: setRanges rest
  | none :: rest => ('-', '-') :: setRanges rest
  | [] => []

def setPiece (body : List Char) : Piece :=
  let wait := if body.head? == some '!' then 2 else 1
  let chunks := dropBackwardRanges (keepLastHyphen (cutAtHyphens wait [] body))
  match setItems chunks with
  | some '!' :: rest => .oneOf true (setRanges rest)
  | items => .oneOf false (setRanges items)

/-- The pieces of a pattern, given a bound on their number. -/
def piecesUpTo : Nat → List Char → List Piece
  | 0, _ => []
  | _ + 1, [] => []
  | bound + 1, c :: rest =>
    if c == '*' then .run :: piecesUpTo bound rest
    else if c == '?' then .one :: piecesUpTo bound rest
    else if c == '[' then
      match setBody? rest with
      | some (body, after) => setPiece body :: piecesUpTo bound after
      | none => .literal c :: piecesUpTo bound rest
    else .literal c :: piecesUpTo bound rest

def pieces (pattern : List Char) : List Piece := piecesUpTo pattern.length pattern

def Piece.accepts (piece : Piece) (c : Char) : Bool :=
  match piece with
  | .literal d => c == d
  | .one | .run => true
  | .oneOf negated ranges => (ranges.any fun r => r.1 ≤ c && c ≤ r.2) != negated

def matchPieces (pieces : List Piece) (chars : List Char) : Bool :=
  fits (· == .run) Piece.accepts pieces chars

def matchesSegment (pattern segment : String) : Bool :=
  matchPieces (pieces pattern.toList) segment.toList

end SourceAtlas.Glob
