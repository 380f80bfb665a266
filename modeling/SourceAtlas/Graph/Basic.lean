/-
# The dependency graph

Nodes stand under keys in the order in which the keys were first added, edges in the order in which
their pairs of ends were first added. A node added under a known key is absorbed by the node that
stands there, and an edge added between the same ends again keeps its place. Nothing is ever
removed.
-/

import SourceAtlas.Graph.Node

namespace SourceAtlas.Graph

/-- Why one node leads to another. -/
inductive EdgeKind where
  /-- A file imports a file or module. -/
  | imports
  /-- A file declares a component or utility. -/
  | contains
deriving DecidableEq, Repr

def EdgeKind.name : EdgeKind → String
  | .imports => "IMPORTS"
  | .contains => "CONTAINS"

def EdgeKind.ofName? (name : String) : Option EdgeKind :=
  [EdgeKind.imports, EdgeKind.contains].find? fun k => k.name == name

/-- An edge with what else is known of it. -/
structure Edge where
  source : String
  target : String
  kind : EdgeKind
  attributes : List (String × Json) := []

/-- The key of the edge between two nodes. -/
def edgeKey (source target : String) : String := source ++ "->" ++ target

def Edge.key (e : Edge) : String := edgeKey e.source e.target

def Edge.joins (source target : String) (e : Edge) : Bool :=
  e.source == source && e.target == target

/-- A graph of keyed nodes. Nodes and edges are kept in the order in which they were first added;
adding keeps at most one node for a key and one edge for a pair of ends. -/
structure DependencyGraph where
  entries : List (String × Node) := []
  arcs : List Edge := []

/-- Why the graph refuses something. -/
inductive GraphFault where
  /-- An edge would have an end that is no node. -/
  | missingEnd (source target missing : String)
  /-- An attribute would hide something that belongs to every edge. -/
  | reservedAttribute (name : String)
  /-- A node is asked for its neighbours and is not there. -/
  | unknownNode (key : String)
deriving DecidableEq, Repr

def GraphFault.message : GraphFault → String
  | .missingEnd source target missing =>
    s!"Cannot add edge {edgeKey source target}: node '{missing}' does not exist"
  | .reservedAttribute name => s!"An edge has one attribute '{name}'"
  | .unknownNode key => s!"The node {key} is not in the digraph."

namespace DependencyGraph

/-- The keys, in the order in which they were first added. -/
def keys (g : DependencyGraph) : List String := g.entries.map Prod.fst

def hasNode (g : DependencyGraph) (key : String) : Bool := g.keys.contains key

def node? (g : DependencyGraph) (key : String) : Option Node := g.entries.lookup key

/-- Puts a node under a key: the first entry of the key absorbs it, and without one it comes
last. -/
def insertEntry (key : String) (node : Node) : List (String × Node) → List (String × Node)
  | [] => [(key, node)]
  | (k, old) :: rest =>
    if k == key then (k, old.absorb node) :: rest else (k, old) :: insertEntry key node rest

/-- Adds a node under a key. If the key is taken, it keeps its place and its node absorbs the new
one. -/
def addNode (g : DependencyGraph) (key : String) (node : Node) : DependencyGraph :=
  { g with entries := insertEntry key node g.entries }

def keysOfKind (g : DependencyGraph) (kind : NodeKind) : List String :=
  (g.entries.filter fun entry => entry.2.kind == kind).map Prod.fst

/-- Sets an attribute in its place, or last if it is new. -/
def setAttribute (name : String) (value : Json) : List (String × Json) → List (String × Json)
  | [] => [(name, value)]
  | (n, v) :: rest =>
    if n == name then (n, value) :: rest else (n, v) :: setAttribute name value rest

/-- An edge added again gets the new kind, and the new attributes beside the ones it had. -/
def Edge.overwrite (old new : Edge) : Edge :=
  { old with
    kind := new.kind
    attributes := new.attributes.foldl (fun all a => setAttribute a.1 a.2 all) old.attributes }

/-- Puts an edge among others: in the place of the one with the same ends, or last. -/
def insertArc (e : Edge) : List Edge → List Edge
  | [] => [e]
  | old :: rest =>
    if old.joins e.source e.target then Edge.overwrite old e :: rest else old :: insertArc e rest

/-- The names of what an edge is asked for with; no attribute has one of them. -/
def requestNames : List String := ["self", "source", "target", "edge_type"]

/-- The names of what an edge is kept under; no attribute has one of them. -/
def storageNames : List String := ["key", "type", "u_of_edge", "v_of_edge"]

/-- Refuses an edge with an attribute of a reserved name. -/
def checkAttributes (reserved : List String) (e : Edge) : Except GraphFault Unit :=
  match (e.attributes.map Prod.fst).find? reserved.contains with
  | some name => .error (.reservedAttribute name)
  | none => .ok ()

def checkEnds (g : DependencyGraph) (e : Edge) : Except GraphFault Unit :=
  match [e.source, e.target].find? fun key => !g.hasNode key with
  | some missing => .error (.missingEnd e.source e.target missing)
  | none => .ok ()

/-- Adds an edge between two nodes. Some attributes are refused before the ends are looked at and
some after, which decides why an edge is refused that is wrong in two ways. -/
def addEdge (g : DependencyGraph) (e : Edge) : Except GraphFault DependencyGraph := do
  checkAttributes requestNames e
  g.checkEnds e
  checkAttributes storageNames e
  return { g with arcs := insertArc e g.arcs }

def edge? (g : DependencyGraph) (source target : String) : Option Edge :=
  g.arcs.find? (Edge.joins source target)

def hasEdge (g : DependencyGraph) (source target : String) : Bool :=
  g.arcs.any (Edge.joins source target)

def edgesFrom (g : DependencyGraph) (key : String) : List Edge :=
  g.arcs.filter fun e => e.source == key

/-- All edges: by the node that they leave, in the order of the nodes. -/
def edges (g : DependencyGraph) : List Edge := g.keys.flatMap g.edgesFrom

def edgeKeys (g : DependencyGraph) : List String := g.edges.map Edge.key

def requireNode (g : DependencyGraph) (key : String) : Except GraphFault Unit :=
  if g.hasNode key then .ok () else .error (.unknownNode key)

/-- The nodes that the edges from a node lead to, in the order in which they were added. -/
def targets (g : DependencyGraph) (key : String) : List String :=
  (g.edgesFrom key).map Edge.target

/-- The nodes whose edges lead to a node, in the order in which they were added. -/
def origins (g : DependencyGraph) (key : String) : List String :=
  (g.arcs.filter fun e => e.target == key).map Edge.source

def successors (g : DependencyGraph) (key : String) : Except GraphFault (List String) := do
  g.requireNode key
  return g.targets key

def predecessors (g : DependencyGraph) (key : String) : Except GraphFault (List String) := do
  g.requireNode key
  return g.origins key

/-- The nodes next to a node in either direction, each once. -/
def neighbors (g : DependencyGraph) (key : String) : Except GraphFault (List String) := do
  let after ← g.successors key
  let before ← g.predecessors key
  return after ++ before.filter fun k => !after.contains k

end DependencyGraph

end SourceAtlas.Graph
