/-
# States of a parser

A state is a set of items that could be under way, each with the tokens that could follow its
phrase. From the items alone follows which tokens make sense next, what to do with them, and the
state after the next symbol. When a token could both end a phrase and continue another one, the
firmness of the phrases decides; where it does not, all ways are kept.

States are numbered as they are met, so that equal states have equal numbers.
-/

import SourceAtlas.Grammar.Insertion
import SourceAtlas.Grammar.Tables

namespace SourceAtlas.Grammar

/-- A set of items. -/
structure State where
  /-- The items by their numbers, with the tokens that could follow them. -/
  kernel : Array (Nat × TokenSet)
  /-- By the place of a phrase: the tokens that could follow it if it starts here. -/
  starting : Array TokenSet
  /-- The tokens that make sense here. -/
  valid : TokenSet
  /-- Whether a word makes sense here, as a name or as a keyword. -/
  word : Bool
  wanted : Wanted

instance : Inhabited State :=
  ⟨⟨#[], #[], 0, false, ⟨false, false, false, false, false, false, false⟩⟩⟩

/-- What can be done with a token. -/
inductive Action where
  /-- Take the token as the next part of the items under way. -/
  | shift
  /-- Take the token as one that may stand anywhere. -/
  | skip
  /-- End the phrase of an item. -/
  | reduce (item : Nat)
  /-- End the text. -/
  | accept
deriving Repr

/-- The states met so far. -/
structure Machine where
  states : Array State := #[]
  ids : Std.HashMap (Array (Nat × TokenSet)) Nat := ∅
  /-- The states after a symbol. -/
  moves : Std.HashMap (Nat × Nat) Nat := ∅
  /-- What to do with a token in a state, as far as it was asked. -/
  answers : Std.HashMap (Nat × Nat) (List Action) := ∅

namespace Tables

variable (t : Tables)

def item (id : Nat) : Item := t.items.getD id default

/-- The place of a phrase among the phrases; nothing for a token. -/
def place? (symbol : Nat) : Option Nat :=
  if symbol < t.terminals.size then none else some (symbol - t.terminals.size)

/-- The tokens that can follow the next symbol of an item. -/
def followOf (item : Item) (follow : TokenSet) : TokenSet :=
  match item.after with
  | some symbol => t.firsts.getD symbol 0
  | none => follow

/-- Adds the phrases that can start where an item stands. -/
def addStarts (starting : Array TokenSet) (entry : Nat × TokenSet) : Array TokenSet :=
  let item := t.item entry.1
  match item.next.bind t.place? with
  | none => starting
  | some p =>
    let follow := t.followOf item entry.2
    let reached := ((t.reach[p]?).map Thunk.get).getD []
    reached.foldl (fun starting r =>
      let marked := r.2 &&& t.mark != 0
      let set := if marked then (r.2 ^^^ t.mark) ||| follow else r.2
      starting.modify r.1 (· ||| set)) starting

/-- The tokens with which an item can go on, or which can follow it at its end. -/
def validFor (entry : Nat × TokenSet) : TokenSet :=
  match (t.item entry.1).next with
  | some symbol => t.firsts.getD symbol 0
  | none => entry.2

/-- Whether a token of a class makes sense. -/
def wants (valid : TokenSet) (terminal : Terminal) : Bool :=
  match t.numbering.ofTerminal[terminal]? with
  | some id => valid.testBit id
  | none => false

def state (kernel : Array (Nat × TokenSet)) : State :=
  let valid := kernel.foldl (fun set entry => set ||| t.validFor entry) t.extras
  let wants (class_ : Lexeme) : Bool := t.wants valid (.lexeme class_)
  { kernel
    starting := kernel.foldl t.addStarts (Array.replicate t.phrases.size 0)
    valid
    word := wants .identifier || (valid &&& t.keywordSet) != 0
    wanted :=
      { semicolon := wants .missingSemicolon
        signatureEnd := wants .missingSignatureEnd
        templateText := wants .templateText
        questionMark := wants .questionMark
        markupText := wants .markupText
        operator := t.wants valid (.literal "||")
        quoted := wants .escape || wants .regexBody } }

/-- Joins entries of the same item in a sorted list. -/
def joinEntries : List (Nat × TokenSet) → Array (Nat × TokenSet) → Array (Nat × TokenSet)
  | [], done => done
  | entry :: rest, done =>
    match done.back? with
    | some last =>
      if last.1 == entry.1 then joinEntries rest (done.pop.push (last.1, last.2 ||| entry.2))
      else joinEntries rest (done.push entry)
    | none => joinEntries rest (done.push entry)

def kernelAfter (s : State) (symbol : Nat) : Array (Nat × TokenSet) :=
  let moved := s.kernel.toList.filterMap fun entry =>
    let item := t.item entry.1
    if item.next == some symbol then some (item.advanced, entry.2) else none
  let begun := (t.begins.getD symbol []).filterMap fun b =>
    let follow := s.starting.getD b.1 0
    if follow == 0 then none else some (b.2, follow)
  joinEntries ((moved ++ begun).mergeSort fun a b => a.1 ≤ b.1) #[]

end Tables

namespace Machine

def stateAt (m : Machine) (id : Nat) : State := m.states.getD id default

def number (t : Tables) (kernel : Array (Nat × TokenSet)) (m : Machine) : Nat × Machine :=
  match m.ids[kernel]? with
  | some id => (id, m)
  | none =>
    let id := m.states.size
    (id, { m with states := m.states.push (t.state kernel), ids := m.ids.insert kernel id })

def move (t : Tables) (state symbol : Nat) (m : Machine) : Nat × Machine :=
  match m.moves[(state, symbol)]? with
  | some id => (id, m)
  | none =>
    let (id, m) := m.number t (t.kernelAfter (m.stateAt state) symbol)
    (id, { m with moves := m.moves.insert (state, symbol) id })

/-- The machine at the start of a text, in the state of number zero. -/
def start (t : Tables) : Machine :=
  let follow := TokenSet.single (t.numbering.terminal .endOfText)
  (number t (t.start.map fun id => (id, follow)).toArray {}).2

end Machine

/-- Whether a rank is that of a level or of one of some phrases. -/
def Rank.fits (rank : Rank) (level : Level) (names : List String) : Bool :=
  match rank with
  | .level text => level == .name text
  | .phrase name => names.contains name

/-- Which of two comes first in an order, if both are in it. -/
def compareIn (order : List Rank) (left right : Level × List String) : Option Ordering :=
  let step (state : Bool × Bool × Option Ordering) (rank : Rank) : Bool × Bool × Option Ordering :=
    match state with
    | (sawLeft, sawRight, none) =>
      if rank.fits left.1 left.2 then (true, sawRight, if sawRight then some .lt else none)
      else if rank.fits right.1 right.2 then (sawLeft, true, if sawLeft then some .gt else none)
      else state
    | decided => decided
  (order.foldl step (false, false, none)).2.2

/-- Which of two holds its parts more firmly: numbers are compared with each other and with what is
not said, everything else by the first order that ranks both. -/
def compareFirmness (orders : List (List Rank)) (left right : Level × List String) : Ordering :=
  let byOrder := (orders.findSome? fun order => compareIn order left right).getD .eq
  let value : Level → Option Int
    | .unsaid => some 0
    | .number n => some n
    | .name _ => none
  match value left.1, value right.1 with
  | some a, some b => if a == 0 && b == 0 then byOrder else compare a b
  | _, _ => byOrder

/-- The phrases that a token could end, as far as they agree in firmness. -/
structure Ending where
  items : List Nat := []
  level : Level := .unsaid
  names : List String := []
  left : Bool := false
  right : Bool := false
  neither : Bool := false

namespace Tables

variable (t : Tables)

def nameOf (item : Item) : List String :=
  (((t.place? item.head).bind fun p => t.phrases[p]?).map PhraseInfo.name).toList

/-- Adds an item that a token could end, unless another one holds its parts more firmly. -/
def addEnding (ending : Ending) (id : Nat) : Ending :=
  let item := t.item id
  let order :=
    if ending.items.isEmpty then Ordering.eq
    else compareFirmness t.orders (item.level, t.nameOf item) (ending.level, ending.names)
  let base := if order == .gt then {} else ending
  if order == .lt then ending
  else
    { items := base.items ++ [id]
      level := item.level
      names := base.names ++ (t.nameOf item).filter fun name => !base.names.contains name
      left := base.left || item.side == some .left
      right := base.right || item.side == some .right
      neither := base.neither || item.side.isNone }

def isRepetition (items : List Item) : Bool :=
  match items with
  | [] => false
  | first :: _ =>
    (((t.place? first.head).bind fun p => t.phrases[p]?).any PhraseInfo.repetition) &&
      items.all fun item => item.head == first.head

/-- Whether a token that could end phrases and continue others is taken, and whether it also ends
phrases. A repetition is always ended first. -/
def settle (ending : Ending) (going : List Item) : Bool × Bool :=
  if t.isRepetition (going ++ ending.items.map t.item) then (false, true)
  else
    let orders := going.map fun item =>
      compareFirmness t.orders (item.level, t.nameOf item) (ending.level, ending.names)
    let more := orders.contains .gt
    let less := orders.contains .lt
    if more && !less then (true, false)
    else if less && !more then (false, true)
    else if !less && !more then
      if ending.left && !ending.right && !ending.neither then (false, true)
      else if ending.right && !ending.left && !ending.neither then (true, false)
      else (true, true)
    else (true, true)

/-- What can be done with a token in a state: ending phrases comes before taking the token. -/
def actions (s : State) (token : Nat) : List Action :=
  let entries := s.kernel.toList
  let done := entries.filter fun entry =>
    (t.item entry.1).next.isNone && entry.2.testBit token
  let going := (entries.map fun entry => t.item entry.1).filter fun item =>
    item.next.any fun symbol => (t.firsts.getD symbol 0).testBit token
  let ending := (done.map Prod.fst).foldl t.addEnding {}
  let ends := ending.items.map fun id =>
    if (t.item id).head == t.whole then Action.accept else Action.reduce id
  if going.isEmpty then
    if ends.isEmpty && t.extras.testBit token then [.skip] else ends
  else if ends.isEmpty then [.shift]
  else
    let (shifts, reduces) := t.settle ending (going.filter fun item => !item.fresh)
    (if reduces then ends else []) ++ (if shifts then [.shift] else [])

end Tables

def Machine.actionsAt (t : Tables) (state token : Nat) (m : Machine) : List Action × Machine :=
  match m.answers[(state, token)]? with
  | some actions => (actions, m)
  | none =>
    let actions := t.actions (m.stateAt state) token
    (actions, { m with answers := m.answers.insert (state, token) actions })

end SourceAtlas.Grammar
