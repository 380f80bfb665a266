/-
# Documents of YAML

A document holds values that may stand in several places and inside of themselves. A value is looked
at from one place: where it turns up again inside of itself, there is only a mark.
-/

import SourceAtlas.Yaml.Construction

namespace SourceAtlas.Yaml

/-- The values of a document, by the numbers of their nodes. -/
structure Document where
  made : Array (Option Made)
  fillings : Array Filling
  root : Nat

/-- A value that one is inside of: a collection, or one of the pairs of a list of pairs. -/
structure Place where
  number : Nat
  pair : Option Nat := none
deriving DecidableEq, Repr

/-- The mark for a collection inside of itself. -/
def againValue : Kind → Value
  | .list | .pairs => .again .list
  | .mapping | .set => .again .mapping

/-- A list, mapping or set of values. -/
def Kind.collect (kind : Kind) (keys values : List Value) : Value :=
  match kind with
  | .list | .pairs => .list values
  | .mapping => .mapping (keys.zip values)
  | .set => .set keys

namespace Document

/-- The value of a node inside of others. No value is entered twice on the way, so the depth is
bounded by their number. -/
def valueInside (d : Document) : Nat → List Place → Nat → Value
  | 0, _, _ => .null
  | fuel + 1, path, number =>
    match d.made[number]?.join with
    | none => .null
    | some (.atom atom) => atom.value
    | some (.collection kind) =>
      if path.contains { number } then againValue kind
      else
        let inside := valueInside d fuel ({ number } :: path)
        match d.fillings[number]? with
        | none => .null
        | some (.items items) => .list (items.map inside)
        | some (.entries entries) =>
          kind.collect (entries.map fun e => e.1.value) (entries.map fun e => inside e.2)
        | some (.pairs pairs) =>
          .list (pairs.zipIdx.map fun (p, i) =>
            let place : Place := { number, pair := some i }
            if path.contains place then .again .pair
            else
              let inside := valueInside d fuel (place :: { number } :: path)
              .pair (inside p.1) (inside p.2))

/-- A bound on how deep values stand inside each other. -/
def depthBound (d : Document) : Nat :=
  let count : Filling → Nat
    | .pairs pairs => pairs.length + 1
    | _ => 1
  d.fillings.foldl (fun total f => total + count f) 1

/-- The value of a node on its own. -/
def value (d : Document) (number : Nat) : Value := d.valueInside d.depthBound [] number

/-- A pair of a list of pairs on its own. -/
def pairValue (d : Document) (number : Nat) (pair : Nat × Nat) (index : Nat) : Value :=
  let inside := d.valueInside d.depthBound [{ number, pair := some index }]
  .pair (inside pair.1) (inside pair.2)

/-- The items of a value, each on its own; none if it has none. -/
def items? (d : Document) (number : Nat) : Option (List Value) :=
  match d.made[number]?.join with
  | some (.atom atom) => atom.value.items?
  | some (.collection _) =>
    (d.fillings[number]?).map fun
      | .items items => items.map d.value
      | .entries entries => entries.map fun e => e.1.value
      | .pairs pairs => pairs.zipIdx.map fun (p, i) => d.pairValue number p i
  | none => none

def rootEntries? (d : Document) : Option (List (Atom × Nat)) :=
  match d.made[d.root]?.join, d.fillings[d.root]? with
  | some (.collection .mapping), some (.entries entries) => some entries
  | _, _ => none

end Document

/-- The values of the nodes of a text. -/
def NodeGraph.document (g : NodeGraph) : Except YamlFault Document := do
  let making : Making :=
    { nodes := g.nodes
      made := g.nodes.map fun _ => none
      fillings := g.nodes.map fun _ => .items [] }
  let all : Maker Unit := do
    let _ ← make g.root
    fillAll g.nodes.size
  let (_, m) ← all.run making
  return { made := m.made, fillings := m.fillings, root := g.root }

/-- The only document of a text in pieces; the text may have none. -/
def read (pieces : List (List Char)) (fault : Option Text.Utf8Fault) :
    Except YamlFault (Option Document) := do
  match ← composeGraph pieces fault with
  | none => return none
  | some g => return some (← g.document)

end SourceAtlas.Yaml
