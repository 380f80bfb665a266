/-
# The stack of a parser with several readings

While a text can be read in several ways, the parser follows all of them. Their stacks share what
they have in common: a node of the stack can stand on several others, with the fragment between them
on each link. Readings that come to the same state at the same offset are joined.
-/

import SourceAtlas.Grammar.Fragment

namespace SourceAtlas.Grammar

/-- A way down from a node of the stack. -/
structure Link where
  below : Nat
  fragment : Fragment

/-- A node of the stack: a state at an offset. -/
structure StackNode where
  state : Nat
  offset : Nat
  links : Array Link
deriving Inhabited

abbrev Stack := Array StackNode

/-- How many links a node may have. -/
def maxLinks : Nat := 8

/-- How many ways down are followed at once. -/
def maxWays : Nat := 64

namespace Stack

def nodeAt (stack : Stack) (id : Nat) : StackNode := stack.getD id default

/-- Puts a fragment on a node and gives the node above it. -/
def push (stack : Stack) (below : Nat) (fragment : Fragment) (state : Nat) : Nat × Stack :=
  (stack.size, Array.push stack ⟨state, fragment.span.stop, #[⟨below, fragment⟩]⟩)

def sameNode (stack : Stack) (a b : Nat) : Bool :=
  let a := stack.nodeAt a
  let b := stack.nodeAt b
  a.state == b.state && a.offset == b.offset

/-- Adds a link to a node. Where a link already reads the same text as the same thing, the heavier
reading is kept, or the ways further down are joined. -/
def addLink (stack : Stack) : Nat → Nat → Link → Stack
  | 0, _, _ => stack
  | fuel + 1, id, link =>
    let node := stack.nodeAt id
    let joins (known : Link) : Bool :=
      known.fragment.alike link.fragment &&
        (known.below == link.below || stack.sameNode known.below link.below)
    if link.below == id then stack
    else
      match node.links.findIdx? joins with
      | some i =>
        match node.links[i]? with
        | some known =>
          if known.below == link.below then
            if link.fragment.weight > known.fragment.weight then
              stack.modify id fun node =>
                { node with links := node.links.setIfInBounds i link }
            else stack
          else
            (stack.nodeAt link.below).links.foldl
              (fun (stack : Stack) lower => stack.addLink fuel known.below lower) stack
        | none => stack
      | none =>
        if node.links.size ≥ maxLinks then stack
        else stack.modify id fun node => { node with links := node.links.push link }

def join (stack : Stack) (into other : Nat) : Stack :=
  (stack.nodeAt other).links.foldl
    (fun (stack : Stack) link => stack.addLink (stack.size + 1) into link) stack

/-- A way down from a node, with the fragments on it in the order of the text. -/
structure Way where
  node : Nat
  fragments : List Fragment
  /-- How many of the fragments cannot stand anywhere. -/
  count : Nat

def Way.follow (way : Way) (link : Link) : Way :=
  { node := link.below
    fragments := link.fragment :: way.fragments
    count := if link.fragment.extra then way.count else way.count + 1 }

/-- Ways under way: those that have been taken a step, those that branched off, and those that have
come to their ends. -/
structure Ways where
  going : Array Way := #[]
  branches : Array Way := #[]
  ended : Array Way := #[]

/-- Takes one of the ways a step down; `waiting` of them come after it. -/
def stepWay (stack : Stack) (ends : Way → StackNode → Bool) (waiting : Nat) (ways : Ways)
    (way : Way) : Ways :=
  let node := stack.nodeAt way.node
  let ways := if ends way node then { ways with ended := ways.ended.push way } else ways
  if ends way node || node.links.isEmpty then ways
  else
    let branch (ways : Ways) (link : Link) : Ways :=
      if ways.going.size + 1 + waiting + ways.branches.size ≥ maxWays then ways
      else { ways with branches := ways.branches.push (way.follow link) }
    let ways := (node.links.extract 1 node.links.size).foldl branch ways
    match node.links[0]? with
    | some link => { ways with going := ways.going.push (way.follow link) }
    | none => ways

def stepWays (stack : Stack) (ends : Way → StackNode → Bool) : List Way → Ways → Ways
  | [], ways => ways
  | way :: rest, ways => stack.stepWays ends rest (stack.stepWay ends rest.length ways way)

/-- All ways down to their ends, in the order in which they end. -/
def waysDown (stack : Stack) (ends : Way → StackNode → Bool) : Nat → List Way → Array Way →
    Array Way
  | 0, _, found => found
  | _, [], found => found
  | fuel + 1, way :: rest, found =>
    let ways := stack.stepWays ends (way :: rest) {}
    stack.waysDown ends fuel (ways.going ++ ways.branches).toList (found ++ ways.ended)

/-- The ways down from a node over a number of fragments. -/
def waysOver (stack : Stack) (node count : Nat) : Array Way :=
  stack.waysDown (fun way _ => way.count == count) (stack.size + 1) [⟨node, [], 0⟩] #[]

/-- The ways from a node to the bottom of the stack. -/
def waysToBottom (stack : Stack) (node : Nat) : Array Way :=
  stack.waysDown (fun _ node => node.links.isEmpty) (stack.size + 1) [⟨node, [], 0⟩] #[]

/-- The ways that end at the same nodes together, in the order in which the nodes were met. -/
def groupWays (ways : Array Way) : Array (Nat × List (List Fragment)) :=
  ways.foldl (fun groups way =>
    match groups.findIdx? fun g => g.1 == way.node with
    | some i => groups.modify i fun g => (g.1, g.2 ++ [way.fragments])
    | none => groups.push (way.node, [way.fragments])) #[]

end Stack

end SourceAtlas.Grammar
