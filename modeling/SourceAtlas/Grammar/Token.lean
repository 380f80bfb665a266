/-
# The next token

Which token stands at an offset depends on the tokens that make sense there: those that depend on
their place come first, then the longest of those told by their characters. A word that is a keyword
is one only where the keyword makes sense.
-/

import SourceAtlas.Grammar.Automaton

namespace SourceAtlas.Grammar

structure Token where
  symbol : Nat
  span : Span
  /-- Whether it is a keyword that could be a name instead. -/
  isKeyword : Bool := false

/-- A token that could stand at an offset. -/
structure Candidate where
  symbol : Nat
  span : Span
  rank : Int
  /-- How exactly its class is told. -/
  exactness : Nat

/-- Whether a candidate is taken instead of another one: by its rank, its length, and how exactly
its class is told. -/
def Candidate.beats (a b : Candidate) : Bool :=
  if a.rank != b.rank then a.rank > b.rank
  else if a.span.stop != b.span.stop then a.span.stop > b.span.stop
  else if a.exactness != b.exactness then a.exactness > b.exactness
  else a.symbol < b.symbol

def bestCandidate? (candidates : List Candidate) : Option Candidate :=
  candidates.foldl (fun best c =>
    match best with
    | none => some c
    | some b => if c.beats b then some c else best) none

namespace Tables

variable (t : Tables)

def nameSymbol : Nat := t.numbering.terminal (.lexeme .identifier)

/-- The candidates that are told by their characters, behind white space that ends at `next`. -/
def candidates (s : Source) (state : State) (i next : Nat) : List Candidate :=
  let signs := ((s.chars[next]?).map fun c => t.signs.getD c.toNat []).getD []
  let fixed := signs.filterMap fun sign =>
    if state.valid.testBit sign.2 && s.startsAt next sign.1 then
      some { symbol := sign.2, span := ⟨next, next + sign.1.length⟩, rank := 0, exactness := 2 }
    else none
  let classes := t.classes.filterMap fun c =>
    if state.valid.testBit c.2 || (c.1 == .identifier && state.word) then
      let start := if c.1.isImmediate then i else next
      let exactness := if c.1.isImmediate then 1 else 0
      (c.1.stop? s start).map fun stop =>
        { symbol := c.2, span := ⟨start, stop⟩, rank := c.1.rank, exactness }
    else none
  fixed ++ classes

def token? (s : Source) (typed : Bool) (state : State) (i : Nat) : Option Token :=
  match s.placed? typed state.wanted i with
  | some (class_, span) => some { symbol := t.numbering.terminal (.lexeme class_), span }
  | none =>
    let next := s.skipWhile isSpace i
    match bestCandidate? (t.candidates s state i next) with
    | none =>
      if next ≥ s.chars.size then
        some { symbol := t.numbering.terminal .endOfText, span := ⟨next, next⟩ }
      else none
    | some best =>
      if best.symbol == t.nameSymbol then
        match t.keywords[s.slice best.span]? with
        | some keyword =>
          some
            { symbol := if state.valid.testBit keyword then keyword else best.symbol
              span := best.span
              isKeyword := true }
        | none => some { symbol := best.symbol, span := best.span }
      else some { symbol := best.symbol, span := best.span }

end Tables

end SourceAtlas.Grammar
