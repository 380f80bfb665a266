/-
# The tables of a language

All that a parser needs to know about a language and that does not depend on the text: its
productions and items, the tokens that every symbol can start with, and the phrases with which a
phrase can start.
-/

import SourceAtlas.Grammar.Item
import SourceAtlas.Grammar.Source

namespace SourceAtlas.Grammar

/-- Adds to the first tokens of each phrase those of the symbols that it starts with, until nothing
is new. -/
def growFirsts (leftmost : Array (List Nat)) (offset : Nat) : Nat → Array TokenSet → Array TokenSet
  | 0, firsts => firsts
  | fuel + 1, firsts =>
    let grown := (List.range leftmost.size).foldl (fun (firsts : Array TokenSet) i =>
      let found := (leftmost.getD i []).foldl (fun set s => set ||| firsts.getD s 0)
        (firsts.getD (offset + i) 0)
      firsts.setIfInBounds (offset + i) found) firsts
    if grown == firsts then firsts else growFirsts leftmost offset fuel grown

/-- A phrase that another phrase can start with, and the tokens that can follow it there. -/
structure Corner where
  /-- The place of the phrase among the phrases. -/
  phrase : Nat
  follow : TokenSet
  /-- Whether what follows the outer phrase can follow the inner one. -/
  through : Bool

/-- Gathers the tokens that can follow the phrases with which a phrase can start, until nothing is
new. A phrase whose tokens have changed waits to be looked at again. -/
def growReach (corners : Array (List Corner)) :
    Nat → List Nat → Array TokenSet → Array TokenSet
  | 0, _, found => found
  | _, [], found => found
  | fuel + 1, p :: waiting, found =>
    let set := found.getD p 0
    let step (state : List Nat × Array TokenSet) (c : Corner) : List Nat × Array TokenSet :=
      let old := state.2.getD c.phrase 0
      let new := old ||| c.follow ||| (if c.through then set else 0)
      if new == old then state
      else (c.phrase :: state.1, state.2.setIfInBounds c.phrase new)
    let (waiting, found) := (corners.getD p []).foldl step (waiting, found)
    growReach corners fuel waiting found

def firstsOf (offset : Nat) (phrases : Array PhraseInfo) : Array TokenSet :=
  let leftmost := phrases.map fun p =>
    distinct (p.sequences.filterMap fun s => s.steps.head?.map Step.symbol)
  let bare := (Array.range (offset + phrases.size)).map fun s =>
    if s < offset then TokenSet.single s else 0
  growFirsts leftmost offset (phrases.size + 1) bare

def joinCorners (corners : List Corner) : List Corner :=
  (distinct (corners.map Corner.phrase)).map fun p =>
    let same := corners.filter fun c => c.phrase == p
    { phrase := p
      follow := same.foldl (fun set c => set ||| c.follow) 0
      through := same.any Corner.through }

/-- The phrases with which a phrase starts. -/
def cornersOf (offset : Nat) (firsts : Array TokenSet) (p : PhraseInfo) : List Corner :=
  let corner? (s : Sequence) : Option Corner :=
    match s.steps with
    | [] => none
    | step :: rest =>
      if step.symbol < offset then none
      else some
        { phrase := step.symbol - offset
          follow := (rest.head?.map fun next => firsts.getD next.symbol 0).getD 0
          through := rest.isEmpty }
  joinCorners (p.sequences.filterMap corner?)

/-- The phrases with which a phrase can start, directly or not, by their places, and the tokens that
can follow them there. -/
def reachOf (corners : Array (List Corner)) (tokens : Nat) (mark : TokenSet) (p : Nat) :
    List (Nat × TokenSet) :=
  let bare := (Array.replicate corners.size 0).setIfInBounds p mark
  let found := growReach corners (corners.size * (tokens + 2)) [p] bare
  found.toList.zipIdx.filterMap fun f => if f.1 == 0 then none else some (f.2, f.1)

/-- The productions of a language. The first two are those of a whole text, which may be empty. -/
def productionsOf (offset : Nat) (phrases : Array PhraseInfo) : List Production :=
  let whole := offset + phrases.size
  let wholes : List Production :=
    [{ head := whole, steps := [], weight := 0 },
      { head := whole, steps := [⟨offset, .unsaid, none, none, none⟩], weight := 0 }]
  wholes ++ (phrases.toList.zipIdx.flatMap fun p =>
    (p.1.sequences.filter fun s => !s.steps.isEmpty).map fun s =>
      { head := offset + p.2, steps := s.steps, weight := s.weight })

/-- By symbol: the phrases that can start with it, by their places, with the item that has read it.
The productions come with the items that have read nothing. -/
def beginsOf (offset count : Nat) (items : Array Item) (starts : List (Production × Nat)) :
    Array (List (Nat × Nat)) :=
  let add (begins : Array (List (Nat × Nat))) (p : Production × Nat) :=
    match p.1.steps with
    | [] => begins
    | step :: _ =>
      begins.modify step.symbol fun known =>
        (p.1.head - offset, (items.getD p.2 default).advanced) :: known
  starts.foldl add (Array.replicate count [])

def Terminal.text? : Terminal → Option String
  | .literal text | .named _ text => some text
  | .lexeme _ | .endOfText => none

def isWordText (text : String) : Bool := text.toList.all isWordChar

/-- Fixed texts by the codes of their first characters. -/
def signsOf (texts : List (String × Nat)) : Std.HashMap Nat (List (List Char × Nat)) :=
  let add (signs : Std.HashMap Nat (List (List Char × Nat))) (t : String × Nat) :=
    match t.1.toList with
    | [] => signs
    | c :: rest => signs.insert c.toNat ((c :: rest, t.2) :: signs.getD c.toNat [])
  texts.foldl add ∅

/-- All that parsing needs to know about a language. -/
structure Tables where
  numbering : Numbering
  phrases : Array PhraseInfo
  orders : List (List Rank)
  extras : TokenSet
  /-- The number that stands for the whole text. -/
  whole : Nat
  productions : Array Production
  items : Array Item
  /-- The items with which a text starts: an empty text and one that is not. -/
  start : List Nat
  /-- By symbol: the tokens that it can start with. -/
  firsts : Array TokenSet
  /-- By symbol: the phrases that can start with it, by their places, with the item that has read
  it. -/
  begins : Array (List (Nat × Nat))
  /-- By the place of a phrase: the phrases with which it can start, by their places, and what can
  follow them. -/
  reach : Array (Thunk (List (Nat × TokenSet)))
  /-- The bit that stands for whatever follows the outer phrase. -/
  mark : TokenSet
  /-- The fixed texts that are no words, by the codes of their first characters. -/
  signs : Std.HashMap Nat (List (List Char × Nat))
  /-- The fixed texts that are words. -/
  keywords : Std.HashMap String Nat
  keywordSet : TokenSet
  /-- The tokens of classes. -/
  classes : List (Lexeme × Nat)

def Tables.terminals (t : Tables) : Array Terminal := t.numbering.terminals

def TokenSet.ofList (tokens : List Nat) : TokenSet :=
  tokens.foldl (fun set t => set ||| TokenSet.single t) 0

def Language.tables (language : Language) : Tables :=
  let rules := language.plainRules
  let numbering := language.numbering rules
  let phrases := language.phrases rules numbering
  let offset := numbering.terminals.size
  let productions := productionsOf offset phrases
  let adding : StateM ItemTable (List Nat) :=
    productions.zipIdx.mapM fun p => ItemTable.addProduction p.1 p.2
  let (firstItems, table) := adding.run {}
  let firsts := firstsOf offset phrases
  let corners := phrases.map (cornersOf offset firsts)
  let mark := TokenSet.single offset
  let numbered := numbering.terminals.toList.zipIdx
  let texts := numbered.filterMap fun t => t.1.text?.map fun text => (text, t.2)
  let words := texts.filter fun t => isWordText t.1
  let class? (t : Terminal × Nat) : Option (Lexeme × Nat) :=
    match t.1 with
    | .lexeme class_ => some (class_, t.2)
    | _ => none
  { numbering
    phrases
    orders := language.orders
    extras := TokenSet.ofList (language.extras.map numbering.terminal)
    whole := offset + phrases.size
    productions := productions.toArray
    items := table.items
    start := firstItems.take 2
    firsts
    begins := beginsOf offset (offset + phrases.size) table.items
      ((productions.zip firstItems).drop 2)
    reach := (Array.range phrases.size).map fun p => .mk fun _ => reachOf corners offset mark p
    mark
    signs := signsOf (texts.filter fun t => !isWordText t.1)
    keywords := .ofList words
    keywordSet := TokenSet.ofList (words.map Prod.snd)
    classes := numbered.filterMap class? }

end SourceAtlas.Grammar
