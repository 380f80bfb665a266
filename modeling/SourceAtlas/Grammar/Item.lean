/-
# Items

An item is a production together with how much of it has been read. Two items that agree on what is
still to come, and on what the node will look like, are the same item.

Sets of tokens are numbers: token `t` is in the set if bit `t` is set.
-/

import SourceAtlas.Grammar.Production

namespace SourceAtlas.Grammar

/-- A set of tokens. -/
abbrev TokenSet := Nat

def TokenSet.single (t : Nat) : TokenSet := Nat.shiftLeft 1 t

/-- A production of a phrase. -/
structure Production where
  /-- The number of the phrase. -/
  head : Nat
  steps : List Step
  weight : Int
deriving Inhabited

/-- A production and how much of it has been read. -/
structure Item where
  head : Nat
  /-- The number of a production of which this is an item. -/
  production : Nat
  length : Nat
  /-- What comes next; nothing if all has been read. -/
  next : Option Nat
  /-- What comes after that. -/
  after : Option Nat
  /-- The item that has read the next symbol. -/
  advanced : Nat
  /-- How firmly the last part that was read is held. -/
  level : Level
  side : Option Side
  /-- Whether nothing has been read yet. -/
  fresh : Bool
deriving Inhabited

/-- What tells items apart. -/
structure ItemKey where
  head : Nat
  read : Nat
  weight : Int
  level : Level
  side : Option Side
  /-- The number of the roles and kinds of what has been read. -/
  trail : Nat
  /-- The number of what is still to come. -/
  rest : Nat
deriving BEq, Hashable

/-- Items while they are gathered. -/
structure ItemTable where
  items : Array Item := #[]
  ids : Std.HashMap ItemKey Nat := ∅
  rests : Std.HashMap (Step × Nat) Nat := ∅
  trails : Std.HashMap ((Option Shown × Option String) × Nat) Nat := ∅

namespace ItemTable

/-- The numbers of the rests of a sequence, from the whole of it to the empty one. -/
def numberRests : List Step → StateM ItemTable (List Nat)
  | [] => return [0]
  | step :: rest => do
    let below ← numberRests rest
    let key := (step, below.headD 0)
    let table ← get
    match table.rests[key]? with
    | some id => return id :: below
    | none =>
      let id := table.rests.size + 1
      set { table with rests := table.rests.insert key id }
      return id :: below

/-- The numbers of what a sequence shows of its starts, from the empty one to the whole of it. -/
def numberTrails (sofar : Nat) : List Step → StateM ItemTable (List Nat)
  | [] => return [sofar]
  | step :: rest => do
    let key := ((step.shown, step.role), sofar)
    let table ← get
    let id ← do
      match table.trails[key]? with
      | some id => pure id
      | none =>
        let id := table.trails.size + 1
        set { table with trails := table.trails.insert key id }
        pure id
    return sofar :: (← numberTrails id rest)

def addItem (key : ItemKey) (item : Item) : StateM ItemTable Nat := do
  let table ← get
  match table.ids[key]? with
  | some id => return id
  | none =>
    let id := table.items.size
    set { table with items := table.items.push item, ids := table.ids.insert key id }
    return id

/-- Adds the items of a production from a place in it on, and gives the first of them. -/
def addItemsFrom (p : Production) (production : Nat) (read : Nat) (last : Option Step) :
    List Step → List Nat → List Nat → StateM ItemTable Nat
  | steps, trails, rests => do
    let advanced ← match steps with
      | [] => pure 0
      | step :: others =>
        addItemsFrom p production (read + 1) (some step) others trails.tail rests.tail
    let level := (last.map Step.level).getD .unsaid
    let side := last.bind Step.side
    addItem
      { head := p.head, read, weight := p.weight, level, side, trail := trails.headD 0
        rest := rests.headD 0 }
      { head := p.head, production, length := p.steps.length
        next := steps.head?.map Step.symbol, after := steps.tail.head?.map Step.symbol
        advanced, level, side, fresh := read == 0 }

/-- Adds the items of a production, and gives the one that has read nothing. -/
def addProduction (p : Production) (production : Nat) : StateM ItemTable Nat := do
  let rests ← numberRests p.steps
  let trails ← numberTrails 0 p.steps
  addItemsFrom p production 0 none p.steps trails rests

end ItemTable

end SourceAtlas.Grammar
