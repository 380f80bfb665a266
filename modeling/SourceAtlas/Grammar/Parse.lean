/-
# Parsing a source file

The parser takes one token after another. With each of them it ends the phrases that the token ends,
and then takes the token. Where both make sense, or where several phrases could end, it goes on with
several readings side by side; readings that fail are dropped, and those that meet are joined.

A text is of the language if one of the readings comes to its end. Of several the heaviest counts.
-/

import SourceAtlas.Grammar.Stack
import SourceAtlas.Grammar.Token

namespace SourceAtlas.Grammar

/-- One of the readings. -/
structure Reading where
  /-- The top of its stack. -/
  node : Nat
  /-- Whether it can go on. -/
  alive : Bool
deriving Inhabited

/-- How many readings are followed over a token. -/
def maxReadings : Nat := 6

/-- The last place among the readings that a new reading may have within a token. -/
def lastReading : Nat := 10

/-- What a parser knows. -/
structure Progress where
  machine : Machine
  stack : Stack
  readings : Array Reading
  /-- The nodes of the whole text in the best reading so far, with its weight. -/
  finished : Option (Int × Parts) := none

/-- A text under a parser with the tables of its language. -/
structure Task where
  tables : Tables
  typed : Bool
  source : Source

namespace Task

variable (task : Task)

/-- A bound on all loops over the tokens of the text. -/
def fuel : Nat := 64 * (task.source.chars.size + 64)

def reading (p : Progress) (v : Nat) : Reading := p.readings.getD v default

def top (p : Progress) (v : Nat) : StackNode := p.stack.nodeAt (reading p v).node

def stop (p : Progress) (v : Nat) : Progress :=
  { p with readings := p.readings.modify v fun r => { r with alive := false } }

def put (p : Progress) (v : Nat) (fragment : Fragment) (state : Nat) : Progress :=
  let node := (reading p v).node
  let (id, stack) := p.stack.push node fragment state
  { p with stack, readings := p.readings.modify v fun r => { r with node := id } }

/-- Whether two readings are in the same state at the same offset. -/
def meet (p : Progress) (a b : Nat) : Bool :=
  (reading p a).alive && (reading p b).alive &&
    p.stack.sameNode (reading p a).node (reading p b).node

def merge (p : Progress) (into other : Nat) : Progress :=
  let a := (reading p into).node
  let b := (reading p other).node
  { p with stack := p.stack.join a b, readings := p.readings.eraseIdxIfInBounds other }

/-- Fragments without those at the end that may stand anywhere, and those. -/
def splitTrailing (fragments : List Fragment) : List Fragment × List Fragment :=
  let trailing := (fragments.reverse.takeWhile Fragment.extra).reverse
  (fragments.take (fragments.length - trailing.length), trailing)

/-- The heaviest phrase over some ways, with what follows it; the first of equals. -/
def heaviest (item : Item) : List (List Fragment) → Option (Fragment × List Fragment)
  | ways =>
    let production := task.tables.productions.getD item.production default
    let phrases := ways.map fun way =>
      let (children, trailing) := splitTrailing way
      (task.tables.phraseFragment task.source item production children, trailing)
    phrases.foldl (fun best next =>
      match best with
      | none => some next
      | some found => if next.1.weight > found.1.weight then some next else best) none

/-- Ends a phrase over the ways that end at one node, as a new reading. -/
def reduceGroup (v : Nat) (item : Item) (p : Progress) (group : Nat × List (List Fragment)) :
    Progress :=
  let place := p.readings.size
  if place > lastReading then p
  else
    match task.heaviest item group.2 with
    | none => p
    | some (phrase, trailing) =>
      let (state, machine) := p.machine.move task.tables (p.stack.nodeAt group.1).state item.head
      let p := { p with machine, readings := p.readings.push ⟨group.1, true⟩ }
      let p := (phrase :: trailing).foldl (fun p fragment => put p place fragment state) p
      match (List.range place).find? fun into => into != v && meet p into place with
      | some into => merge p into place
      | none => p

/-- Ends a phrase in a reading. -/
def reduce (v : Nat) (item : Item) (p : Progress) : Progress :=
  let groups := Stack.groupWays (p.stack.waysOver (reading p v).node item.length)
  groups.foldl (task.reduceGroup v item) p

/-- Takes note of a reading that has come to the end of the text. -/
def accept (v : Nat) (p : Progress) : Progress :=
  let note (p : Progress) (way : Stack.Way) : Progress :=
    let fragments := way.fragments
    let weight := fragments.foldl (fun sum f => sum + f.weight) 0
    let parts := fragments.foldr (fun f rest =>
      Parts.both (if f.extra then task.tables.asideParts task.source f else f.parts) rest) .none
    match p.finished with
    | some best => if weight > best.1 then { p with finished := some (weight, parts) } else p
    | none => { p with finished := some (weight, parts) }
  stop ((p.stack.waysToBottom (reading p v).node).foldl note p) v

/-- What has come of a token in a reading. -/
structure Outcome where
  progress : Progress
  /-- Whether the token has been dealt with. -/
  done : Bool := false
  /-- Whether a phrase has been ended. -/
  reduced : Bool := false
  /-- The last reading that came of ending a phrase. -/
  fresh : Option Nat := none

/-- Does one of the things that can be done with a token. -/
def act (v state symbol : Nat) (token : Token) (o : Outcome) (action : Action) : Outcome :=
  if o.done then o
  else
    let p := o.progress
    let lead := (top p v).offset
    match action with
    | .shift =>
      let (next, machine) := p.machine.move task.tables state symbol
      let fragment := Fragment.ofToken symbol lead token.span false
      { o with progress := put { p with machine } v fragment next, done := true }
    | .skip =>
      let fragment := Fragment.ofToken symbol lead token.span true
      { o with progress := put p v fragment state, done := true }
    | .accept => { o with progress := task.accept v p, done := true }
    | .reduce id =>
      let before := p.readings.size
      let p := task.reduce v (task.tables.item id) p
      { o with
        progress := p
        reduced := true
        fresh := if p.readings.size > before then some before else o.fresh }

/-- Deals with a token in a reading: ends phrases until the token is taken or makes no sense. A
keyword that makes no sense is taken for a name. -/
def takeToken (v : Nat) (token : Token) : Nat → Nat → Progress → Progress
  | 0, _, p => stop p v
  | fuel + 1, symbol, p =>
    let state := (top p v).state
    let (actions, machine) := p.machine.actionsAt task.tables state symbol
    let o := actions.foldl (task.act v state symbol token) { progress := { p with machine } }
    let p := o.progress
    if o.done then p
    else
      match o.fresh with
      | some fresh =>
        let readings := (p.readings.setIfInBounds v (reading p fresh)).eraseIdxIfInBounds fresh
        takeToken v token fuel symbol { p with readings }
      | none =>
        let name := task.tables.nameSymbol
        if !o.reduced && token.isKeyword && symbol != name &&
            (p.machine.stateAt state).valid.testBit name then
          takeToken v token fuel name p
        else stop p v

def advance (v : Nat) (p : Progress) : Progress :=
  let node := top p v
  let state := p.machine.stateAt node.state
  match task.tables.token? task.source task.typed state node.offset with
  | none => stop p v
  | some token => task.takeToken v token task.fuel token.symbol p

/-- Takes tokens in a reading until it has passed the others, or for all but the first has caught up
with them. -/
def drive (v : Nat) : Nat → Nat → Progress → Nat × Progress
  | 0, last, p => (last, stop p v)
  | fuel + 1, last, p =>
    if !(reading p v).alive then (last, p)
    else
      let p := task.advance v p
      let offset := (top p v).offset
      if !(reading p v).alive then (last, p)
      else if offset > last || (v > 0 && offset == last) then (offset, p)
      else drive v fuel last p

def driveAll : Nat → Nat → Nat → Progress → Nat × Progress
  | 0, _, last, p => (last, p)
  | fuel + 1, v, last, p =>
    if v < p.readings.size then
      let (last, p) := task.drive v task.fuel last p
      driveAll fuel (v + 1) last p
    else (last, p)

/-- Joins the readings that can be joined, from one on. -/
def joinReadings : Nat → Nat → Progress → Progress
  | 0, _, p => p
  | fuel + 1, v, p =>
    if v < p.readings.size then
      match (List.range v).find? fun into => meet p into v with
      | some into => joinReadings fuel v (merge p into v)
      | none => joinReadings fuel (v + 1) p
    else p

/-- Drops the readings that have failed, joins those that have met, and keeps the first of them. -/
def condense (p : Progress) : Progress :=
  let p := { p with readings := p.readings.filter Reading.alive }
  let p := joinReadings (p.readings.size + 1) 0 p
  { p with readings := p.readings.extract 0 maxReadings }

def run : Nat → Nat → Progress → Progress
  | 0, _, p => p
  | fuel + 1, last, p =>
    if p.readings.isEmpty then p
    else
      let (last, p) := task.driveAll task.fuel 0 last p
      run fuel last (condense p)

def tree? : Option Tree :=
  let first : Progress :=
    { machine := Machine.start task.tables
      stack := #[⟨0, 0, #[]⟩]
      readings := #[⟨0, true⟩] }
  (task.run task.fuel 0 first).finished.map fun best =>
    let whole : Fragment :=
      { symbol := 0, lead := 0, span := ⟨0, task.source.chars.size⟩, weight := 0, extra := false
        arity := 0, parts := best.2 }
    whole.tree task.source ⟨"program", true⟩

end Task

def typedTables : Thunk Tables := .mk fun _ => Dialect.typescript.language.tables

def typedMarkupTables : Thunk Tables := .mk fun _ => Dialect.tsx.language.tables

def plainTables : Thunk Tables := .mk fun _ => Dialect.javascript.language.tables

def Dialect.tables : Dialect → Tables
  | .typescript => typedTables.get
  | .tsx => typedMarkupTables.get
  | .javascript => plainTables.get

/-- The syntax tree of a text; none if the text is not of the language. Of several readings that
come to the end the heaviest counts, and of equals the first. -/
def parse? (dialect : Dialect) (text : List Char) : Option Tree :=
  let task : Task :=
    { tables := dialect.tables, typed := dialect.hasTypes, source := Source.ofText text }
  task.tree?

end SourceAtlas.Grammar
