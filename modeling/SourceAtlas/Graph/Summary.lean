/-
# Figures and records of a graph

How many nodes and edges of each kind there are, how dense the edges are, and the graph as plain
records.
-/

import SourceAtlas.Graph.Basic
import SourceAtlas.Graph.Record

namespace SourceAtlas.Graph

/-- How often each text occurs, in the order of first occurrence. -/
def tally (items : List String) : List (String × Nat) :=
  items.eraseDups.map fun item => (item, items.count item)

namespace DependencyGraph

/-- The share of the possible edges that are there. Without nodes it is the fraction zero; with one
node or without edges it is the whole number zero. -/
def density (g : DependencyGraph) : Number :=
  let n := g.entries.length
  let m := g.arcs.length
  if n == 0 then .float 0.0
  else if m == 0 || n == 1 then .int 0
  else .float (Binary64.nearest false m (n * (n - 1)))

def tallyRecord (counts : List (String × Nat)) : Json :=
  .object (counts.map fun c => (c.1, .nat c.2))

def statisticsRecord (g : DependencyGraph) : Json :=
  .object
    [("nodes", .nat g.entries.length),
      ("edges", .nat g.arcs.length),
      ("density", .number g.density),
      ("node_types", tallyRecord (tally (g.entries.map fun e => e.2.kind.name))),
      ("edge_types", tallyRecord (tally (g.edges.map fun e => e.kind.name)))]

/-- What is stored of an edge. -/
def edgeDataRecord (e : Edge) : Json :=
  .object (("key", .text e.key) :: ("type", .text e.kind.name) :: e.attributes)

def edgeRecord (e : Edge) : Json :=
  .object [("key", .text e.key), ("source", .text e.source), ("target", .text e.target),
    ("type", .text e.kind.name)]

def record (g : DependencyGraph) : Json :=
  .object
    [("nodes", .array (g.entries.map fun e => .object (("key", .text e.1) :: e.2.members))),
      ("edges", .array (g.edges.map edgeRecord))]

end DependencyGraph

end SourceAtlas.Graph
