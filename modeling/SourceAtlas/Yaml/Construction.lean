/-
# From nodes to values

The value of a scalar follows from its text and its tag. A collection is there before what it holds
is known, and the collections are filled in the order in which they were met, so that one may hold
another, or itself. When a mapping is filled, it first takes over the entries of the mappings that
are merged into it; its own entries win.
-/

import SourceAtlas.Yaml.Atom
import SourceAtlas.Yaml.Node

namespace SourceAtlas.Yaml

/-- What a collection is. -/
inductive Kind where
  | list
  /-- A list of keys with their values. -/
  | pairs
  | mapping
  | set
deriving DecidableEq, Repr

def kindTags : List (String × Kind) :=
  [(sequenceTag, .list), (mappingTag, .mapping), (standardTag "set", .set),
    (standardTag "omap", .pairs), (standardTag "pairs", .pairs)]

/-- A value that is no collection. -/
structure Atom where
  value : Value
  /-- What tells numbers that are none apart. -/
  identity : Nat

/-- What a node has become. -/
inductive Made where
  | atom (a : Atom)
  | collection (kind : Kind)

/-- What a collection holds; values are given by the numbers of their nodes. -/
inductive Filling where
  | items (items : List Nat)
  | pairs (pairs : List (Nat × Nat))
  | entries (entries : List (Atom × Nat))

/-- What making values keeps in mind. -/
structure Making where
  nodes : Array Node
  made : Array (Option Made)
  fillings : Array Filling
  /-- The collections that are still to be filled. -/
  waiting : List Nat := []

/-- A maker of values. -/
abbrev Maker := StateT Making (Except YamlFault)

def nodeAt (number : Nat) : Maker Node := do
  match (← get).nodes[number]? with
  | some node => return node
  | none => throw .malformed

/-- The text of a scalar. A mapping may stand for the value of one of its keys. -/
def scalarText : Nat → Nat → Maker String
  | 0, _ => throw (.scalar .endless)
  | fuel + 1, number => do
    match (← nodeAt number).content with
    | .scalar text => return text
    | .sequence _ => throw .malformed
    | .mapping entries =>
      match ← entries.findM? fun e => do return (← nodeAt e.1).tag == valueTag with
      | some e => scalarText fuel e.2
      | none => throw .malformed

/-- A scalar with its value. -/
def scalarFault {α : Type} (result : Except ScalarFault α) : Maker α :=
  match result with
  | .ok a => return a
  | .error fault => throw (.scalar fault)

/-- The identity of the one number that is none and is written with a point in front. -/
def commonIdentity : Nat := 0

/-- The value of a node under a tag for scalars; none if the tag is for something else. -/
def makeAtom (number : Nat) (node : Node) : Maker (Option Atom) := do
  let text := scalarText ((← get).nodes.size + 1) number
  let plain (value : Value) : Option Atom := some { value, identity := number + 1 }
  if node.tag == standardTag "null" then
    let _ ← text
    return plain .null
  else if node.tag == standardTag "bool" then
    return plain (.bool (← scalarFault (truthValue (← text))))
  else if node.tag == standardTag "int" then
    return plain (.number (.int (← scalarFault (wholeValue (← text)))))
  else if node.tag == standardTag "float" then
    let x ← scalarFault (floatValue (← text))
    let identity := if x.isCommonNaN then commonIdentity else number + 1
    return some { value := .number (.float x.value), identity }
  else if node.tag == standardTag "binary" then
    match bytesValue? (← text) with
    | some bytes => return plain (.bytes bytes)
    | none => throw .malformed
  else if node.tag == standardTag "timestamp" then
    let text ← text
    match node.content with
    | .scalar _ => return plain (← scalarFault (timeValue text))
    | _ => throw (.scalar .timeNotText)
  else if node.tag == textTag then return plain (.text (← text))
  else return none

/-- Makes the value of a node, unless it is made already. A collection waits to be filled. -/
def make (number : Nat) : Maker Made := do
  match (← get).made[number]?.join with
  | some made => return made
  | none =>
    let node ← nodeAt number
    let made ← do
      match kindTags.lookup node.tag with
      | some kind =>
        modify fun m => { m with waiting := m.waiting ++ [number] }
        pure (Made.collection kind)
      | none =>
        match ← makeAtom number node with
        | some atom => pure (Made.atom atom)
        | none => throw .malformed
    modify fun m => { m with made := m.made.setIfInBounds number (some made) }
    return made

def sequenceItems (number : Nat) : Maker (List Nat) := do
  match (← nodeAt number).content with
  | .sequence items => return items
  | _ => throw .malformed

def mappingEntries (number : Nat) : Maker (List (Nat × Nat)) := do
  match (← nodeAt number).content with
  | .mapping entries => return entries
  | _ => throw .malformed

/-- Says which entries a mapping has. -/
def setEntries (number : Nat) (entries : List (Nat × Nat)) : Maker Unit :=
  modify fun m =>
    { m with nodes := m.nodes.modify number fun n => { n with content := .mapping entries } }

/-- The key that stands for a mapping is an ordinary text among other keys. -/
def makePlainKey (number : Nat) : Maker Unit :=
  modify fun m =>
    { m with nodes := m.nodes.modify number fun n =>
      { n with tag := if n.tag == valueTag then textTag else n.tag } }

/-- The entries that the value of a merge key gives. `settle` merges into the mappings first that
are to be merged. -/
def mergedFrom (settle : Nat → Maker Unit) (number : Nat) : Maker (List (Nat × Nat)) := do
  match (← nodeAt number).content with
  | .scalar _ => throw .malformed
  | .mapping _ =>
    settle number
    mappingEntries number
  | .sequence items =>
    let all ← items.mapM fun item => do
      let _ ← mappingEntries item
      settle item
      mappingEntries item
    return all.reverse.flatten

/-- Takes the merge keys out of a mapping from an entry on, and gives the entries that they stand
for. -/
def takeMerges (settle : Nat → Maker Unit) (number : Nat) :
    Nat → Nat → List (Nat × Nat) → Maker (List (Nat × Nat))
  | 0, _, _ => throw .malformed
  | fuel + 1, place, merged => do
    let entries ← mappingEntries number
    match entries[place]? with
    | none => return merged
    | some (key, value) =>
      if (← nodeAt key).tag == mergeTag then
        setEntries number (entries.eraseIdx place)
        let more ← mergedFrom settle value
        takeMerges settle number fuel place (merged ++ more)
      else
        makePlainKey key
        takeMerges settle number fuel (place + 1) merged

/-- How many entries all mappings have together. -/
def entryCount : Maker Nat := do
  let count (n : Node) : Nat := match n.content with
    | .mapping entries => entries.length
    | _ => 0
  return (← get).nodes.foldl (fun total n => total + count n) 0

/-- Puts the entries that are merged into a mapping in front of its own. Every merge key is taken
out before it is followed, so this ends. -/
def settleMerges : Nat → Nat → Maker Unit
  | 0, _ => throw .malformed
  | fuel + 1, number => do
    let merged ← takeMerges (settleMerges fuel) number ((← entryCount) + 1) 0 []
    if !merged.isEmpty then setEntries number (merged ++ (← mappingEntries number))

/-- How many days lie between the start of the calendar and a date. -/
def dayNumber (d : Date) : Nat :=
  let years := d.year - 1
  let before := (List.range (d.month - 1)).map fun m => daysInMonth d.year (m + 1)
  365 * years + years / 4 - years / 100 + years / 400 + before.foldr (· + ·) 0 + d.day

/-- The microseconds between the start of the calendar and a point in time, by its own clock. -/
def clockTime (t : Timestamp) : Int :=
  let seconds := ((dayNumber t.date * 24 + t.hour) * 60 + t.minute) * 60 + t.second
  seconds * 1000000 + t.microsecond

/-- Whether two points in time are the same. Clocks that tell their distance from universal time are
compared by it, and with no others. -/
def isSameTime (a b : Timestamp) : Bool :=
  match a.offset, b.offset with
  | some x, some y => clockTime a - x * 1000000 == clockTime b - y * 1000000
  | none, none => clockTime a == clockTime b
  | _, _ => false

/-- The number that a value is, truth values included. -/
def numberOf? : Value → Option Number
  | .bool b => some (.int (if b then 1 else 0))
  | .number n => some n
  | _ => none

/-- Whether two keys are the same. A number that is none is the same as itself only. -/
def isSameKey (a b : Atom) : Bool :=
  match a.value, b.value with
  | .null, .null => true
  | .text s, .text t => s == t
  | .bytes s, .bytes t => s == t
  | .date d, .date e => d == e
  | .timestamp s, .timestamp t => isSameTime s t
  | v, w =>
    match numberOf? v, numberOf? w with
    | some m, some n => m.eq n || (!m.eq m && !n.eq n && a.identity == b.identity)
    | _, _ => false

/-- Sets an entry: a known key keeps its place and gets the new value, a new one comes last. -/
def setEntry (entries : List (Atom × Nat)) (key : Atom) (value : Nat) : List (Atom × Nat) :=
  if entries.any fun e => isSameKey e.1 key then
    entries.map fun e => if isSameKey e.1 key then (e.1, value) else e
  else entries ++ [(key, value)]

/-- Adds one entry of a mapping. A collection cannot be a key. -/
def addEntry (entries : List (Atom × Nat)) (entry : Nat × Nat) : Maker (List (Atom × Nat)) := do
  match ← make entry.1 with
  | .collection _ => throw .malformed
  | .atom key =>
    let _ ← make entry.2
    return setEntry entries key entry.2

/-- The entries of a mapping with those that are merged into it. -/
def filledEntries (number : Nat) : Maker (List (Atom × Nat)) := do
  let _ ← mappingEntries number
  settleMerges ((← entryCount) + 1) number
  (← mappingEntries number).foldlM addEntry []

/-- The key and the value of a mapping with one entry. -/
def filledPair (number : Nat) : Maker (Nat × Nat) := do
  match ← mappingEntries number with
  | [(key, value)] =>
    let _ ← make key
    let _ ← make value
    return (key, value)
  | _ => throw .malformed

def fill (number : Nat) (kind : Kind) : Maker Filling := do
  match kind with
  | .list =>
    let items ← sequenceItems number
    for item in items do
      let _ ← make item
    return .items items
  | .pairs =>
    let items ← sequenceItems number
    return .pairs (← items.mapM filledPair)
  | .mapping | .set => return .entries (← filledEntries number)

/-- Fills the collections that wait, one after the other. -/
def fillAll : Nat → Maker Unit
  | 0 => return ()
  | fuel + 1 => do
    match (← get).waiting with
    | [] => return ()
    | number :: waiting =>
      modify fun m => { m with waiting }
      match (← get).made[number]?.join with
      | some (.collection kind) =>
        let filling ← fill number kind
        modify fun m => { m with fillings := m.fillings.setIfInBounds number filling }
      | _ => return ()
      fillAll fuel

end SourceAtlas.Yaml
