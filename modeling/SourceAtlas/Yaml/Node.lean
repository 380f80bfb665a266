/-
# Nodes of YAML

The tokens of a document make a graph of scalars, sequences and mappings, each with a tag that says
what it is. Nodes are numbered as they are met, and collections name what they hold by number: a
node that has a name may stand in several places, and even inside of itself. A stream for one value
holds one document at most.
-/

import SourceAtlas.Yaml.Lexer
import SourceAtlas.Yaml.Scalar

namespace SourceAtlas.Yaml

/-- What a node holds; other nodes are given by their numbers. -/
inductive Content where
  | scalar (text : String)
  | sequence (items : List Nat)
  | mapping (entries : List (Nat × Nat))
deriving DecidableEq, Repr

/-- A node with its tag. -/
structure Node where
  tag : String
  content : Content
deriving DecidableEq, Repr

/-- What reading nodes keeps in mind. -/
structure Composing where
  reading : Reading
  /-- The short forms of tags. -/
  handles : List (String × String)
  nodes : Array Node := #[]
  /-- The numbers of the nodes with names. -/
  anchors : List (String × Nat) := []

/-- A reader of nodes. -/
abbrev Composer := StateT Composing (Except YamlFault)

/-- Stops because the text is no YAML. -/
def reject {α : Type} : Composer α := throw .malformed

/-- Runs a reader of tokens. -/
def lexing {α : Type} (p : Lexer α) : Composer α := do
  let c ← get
  let (a, reading) ← p.run c.reading
  set { c with reading }
  return a

def nextToken? : Composer Token := lexing peekToken

def nextIn (wanted : List Token) : Composer Bool := do return wanted.contains (← nextToken?)

def useToken : Composer Unit := lexing skipToken

def expect (wanted : Token) : Composer Unit := do
  if (← nextToken?) == wanted then useToken else reject

/-- Uses this token if it comes next. -/
def skipIf (wanted : Token) : Composer Bool := do
  if (← nextToken?) == wanted then
    useToken
    return true
  else return false

/-- Adds a node and gives its number. -/
def addNode (node : Node) : Composer Nat := do
  let c ← get
  set { c with nodes := c.nodes.push node }
  return c.nodes.size

/-- Says what a collection holds. -/
def setContent (number : Nat) (content : Content) : Composer Nat := do
  modify fun c => { c with nodes := c.nodes.modify number fun n => { n with content } }
  return number

/-- A scalar that is not written. -/
def emptyScalar : Composer Nat := addNode { tag := implicitTag "", content := .scalar "" }

/-- The name and the tag in front of a node, in either order. -/
def properties : Composer (Option String × Option (Option String × String)) := do
  match ← nextToken? with
  | .anchor name =>
    useToken
    match ← nextToken? with
    | .tag handle suffix =>
      useToken
      return (some name, some (handle, suffix))
    | _ => return (some name, none)
  | .tag handle suffix =>
    useToken
    match ← nextToken? with
    | .anchor name =>
      useToken
      return (some name, some (handle, suffix))
    | _ => return (none, some (handle, suffix))
  | _ => return (none, none)

def fullTag (tag : Option (Option String × String)) : Composer (Option String) := do
  match tag with
  | none => return none
  | some (none, suffix) => return some suffix
  | some (some handle, suffix) =>
    match (← get).handles.lookup handle with
    | some full => return some (full ++ suffix)
    | none => reject

/-- Refuses a name that another node has. -/
def checkAnchor (anchor : Option String) : Composer Unit := do
  match anchor with
  | none => return ()
  | some name => if (← get).anchors.any fun a => a.1 == name then reject

/-- Adds a node under a name, if it has one. -/
def addNamed (anchor : Option String) (node : Node) : Composer Nat := do
  let number ← addNode node
  match anchor with
  | none => return number
  | some name =>
    modify fun c => { c with anchors := (name, number) :: c.anchors }
    return number

/-- Whether a tag leaves open what a node is. -/
def isOpenTag (tag : Option String) : Bool := tag == none || tag == some "!"

def scalarTag (tag : Option String) (plain : Bool) (text : String) : String :=
  if isOpenTag tag then
    if plain || tag == some "!" then implicitTag text else textTag
  else tag.getD textTag

def collectionTag (tag : Option String) (usual : String) : String :=
  if isOpenTag tag then usual else tag.getD usual

/-- The number of the node of a name. -/
def referenced (name : String) : Composer Nat := do
  match (← get).anchors.lookup name with
  | some number => return number
  | none => reject

/-- A collection after its name and tag. It has its number before what it holds is read, so that it
may hold itself. -/
def collection (anchor : Option String) (tag : Option String) (usual : String) (empty : Content)
    (inside : Composer Content) : Composer Nat := do
  let number ← addNamed anchor { tag := collectionTag tag usual, content := empty }
  let content ← inside
  setContent number content

mutual

/-- A node, in a block or in a flow collection. The value of a key may be a sequence without
indentation. -/
def node : Nat → Bool → Bool → Composer Nat
  | 0, _, _ => reject
  | fuel + 1, block, indentless => do
    match ← nextToken? with
    | .reference name =>
      useToken
      referenced name
    | _ =>
      let (anchor, given) ← properties
      let tag ← fullTag given
      let next ← nextToken?
      let sequence (inside : Composer (List Nat)) : Composer Nat :=
        collection anchor tag sequenceTag (.sequence []) (Content.sequence <$> inside)
      let mapping (inside : Composer (List (Nat × Nat))) : Composer Nat :=
        collection anchor tag mappingTag (.mapping []) (Content.mapping <$> inside)
      match next with
      | .scalar text plain =>
        checkAnchor anchor
        useToken
        addNamed anchor { tag := scalarTag tag plain text, content := .scalar text }
      | .flowSequenceStart =>
        checkAnchor anchor
        useToken
        sequence (flowSequence fuel true [])
      | .flowMappingStart =>
        checkAnchor anchor
        useToken
        mapping (flowMapping fuel true [])
      | _ =>
        if indentless && next == .blockEntry then
          checkAnchor anchor
          sequence (indentlessSequence fuel [])
        else if block && next == .blockSequenceStart then
          checkAnchor anchor
          useToken
          sequence (blockSequence fuel [])
        else if block && next == .blockMappingStart then
          checkAnchor anchor
          useToken
          mapping (blockMapping fuel [])
        else if anchor.isSome || tag.isSome then
          checkAnchor anchor
          addNamed anchor { tag := scalarTag tag true "", content := .scalar "" }
        else reject

/-- A node, unless one of these tokens comes next. -/
def nodeUnless : Nat → List Token → Bool → Bool → Composer Nat
  | 0, _, _, _ => reject
  | fuel + 1, stops, block, indentless => do
    if ← nextIn stops then emptyScalar else node fuel block indentless

def blockSequence : Nat → List Nat → Composer (List Nat)
  | 0, _ => reject
  | fuel + 1, items => do
    if ← skipIf .blockEntry then
      let item ← nodeUnless fuel [.blockEntry, .blockEnd] true false
      blockSequence fuel (item :: items)
    else
      expect .blockEnd
      return items.reverse

def indentlessSequence : Nat → List Nat → Composer (List Nat)
  | 0, _ => reject
  | fuel + 1, items => do
    if ← skipIf .blockEntry then
      let item ← nodeUnless fuel [.blockEntry, .key, .value, .blockEnd] true false
      indentlessSequence fuel (item :: items)
    else return items.reverse

/-- The value after a key, which may be missing. -/
def valueUnless : Nat → List Token → Bool → Composer Nat
  | 0, _, _ => reject
  | fuel + 1, stops, block => do
    if ← skipIf .value then nodeUnless fuel stops block block else emptyScalar

def blockMapping : Nat → List (Nat × Nat) → Composer (List (Nat × Nat))
  | 0, _ => reject
  | fuel + 1, entries => do
    let stops : List Token := [.key, .value, .blockEnd]
    if ← skipIf .key then
      let key ← nodeUnless fuel stops true true
      let value ← valueUnless fuel stops true
      blockMapping fuel ((key, value) :: entries)
    else
      expect .blockEnd
      return entries.reverse

/-- The items of a sequence between brackets. A key with its value is a mapping of its own. -/
def flowSequence : Nat → Bool → List Nat → Composer (List Nat)
  | 0, _, _ => reject
  | fuel + 1, first, items => do
    if ← skipIf .flowSequenceEnd then return items.reverse
    if !first then expect .flowEntry
    let stops : List Token := [.flowEntry, .flowSequenceEnd]
    if ← skipIf .key then
      let number ← addNode { tag := mappingTag, content := .mapping [] }
      let key ← nodeUnless fuel (.value :: stops) false false
      let value ← valueUnless fuel stops false
      let item ← setContent number (.mapping [(key, value)])
      flowSequence fuel false (item :: items)
    else if ← skipIf .flowSequenceEnd then return items.reverse
    else
      let item ← node fuel false false
      flowSequence fuel false (item :: items)

def flowMapping : Nat → Bool → List (Nat × Nat) → Composer (List (Nat × Nat))
  | 0, _, _ => reject
  | fuel + 1, first, entries => do
    if ← skipIf .flowMappingEnd then return entries.reverse
    if !first then expect .flowEntry
    let stops : List Token := [.flowEntry, .flowMappingEnd]
    if ← skipIf .key then
      let key ← nodeUnless fuel (.value :: stops) false false
      let value ← valueUnless fuel stops false
      flowMapping fuel false ((key, value) :: entries)
    else if ← skipIf .flowMappingEnd then return entries.reverse
    else
      let key ← node fuel false false
      let value ← emptyScalar
      flowMapping fuel false ((key, value) :: entries)

end

/-! ## Documents -/

/-- The short forms of tags that are always there. -/
def usualHandles : List (String × String) := [("!", "!"), ("!!", "tag:yaml.org,2002:")]

/-- The directives of a document; the short forms they give come before the usual ones. -/
def directives : Nat → Bool → List (String × String) → Composer (List (String × String))
  | 0, _, _ => reject
  | fuel + 1, versioned, handles => do
    match ← nextToken? with
    | .directive d =>
      useToken
      match d with
      | .version major =>
        if versioned || major != 1 then reject
        directives fuel true handles
      | .handle short full =>
        if handles.any fun h => h.1 == short then reject
        directives fuel versioned (handles ++ [(short, full)])
      | .other => directives fuel versioned handles
    | _ => return handles ++ usualHandles

def atDocumentEnd : Composer Bool := do
  match ← nextToken? with
  | .directive _ | .documentStart | .documentEnd | .streamEnd => return true
  | _ => return false

/-- Steps over marks for the end of a document. -/
def skipDocumentEnds : Nat → Composer Unit
  | 0 => reject
  | fuel + 1 => do
    if ← skipIf .documentEnd then skipDocumentEnds fuel

/-- A document that is announced by its mark. -/
def announcedDocument (fuel : Nat) : Composer (Option Nat) := do
  skipDocumentEnds fuel
  if (← nextToken?) == .streamEnd then return none
  let handles ← directives fuel false []
  modify fun c => { c with handles }
  expect .documentStart
  if ← atDocumentEnd then return some (← emptyScalar)
  return some (← node fuel true false)

/-- The first document; nothing if there is none. Only this one may come without a mark. -/
def firstDocument (fuel : Nat) : Composer (Option Nat) := do
  match ← nextToken? with
  | .directive _ | .documentStart | .streamEnd => announcedDocument fuel
  | _ => return some (← node fuel true false)

def onlyDocument (fuel : Nat) : Composer (Option Nat) := do
  match ← firstDocument fuel with
  | none => return none
  | some root =>
    skipDocumentEnds fuel
    if (← nextToken?) == .streamEnd then return some root else reject

/-- The nodes of a text. -/
structure NodeGraph where
  nodes : Array Node
  root : Nat

/-- The nodes of the only document of a text in pieces; the text may have none. -/
def composeGraph (pieces : List (List Char)) (fault : Option Text.Utf8Fault) :
    Except YamlFault (Option NodeGraph) := do
  let reading := Reading.start pieces fault
  let document : Composer (Option Nat) := do
    lexing startReading
    onlyDocument (4 * reading.size + 16)
  let (root, c) ← document.run { reading, handles := usualHandles }
  return root.map fun root => { nodes := c.nodes, root }

end SourceAtlas.Yaml
