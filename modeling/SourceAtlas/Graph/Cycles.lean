/-
# Elementary cycles

An elementary cycle visits each of its nodes once and returns to the first. Every cycle is listed
once, from its least key on, and the list is in order. The search from a key visits only greater
keys from which the start can still be reached.
-/

import SourceAtlas.Graph.Basic

namespace SourceAtlas.Graph

/-- The ways to go on from a node through some of the available nodes and then back to the
start. -/
def returnsTo (links : String → List String) (start : String) (available : List String)
    (current : String) : List (List String) :=
  let closing := if (links current).contains start then [[]] else []
  closing ++ (available.filter (links current).contains).attach.flatMap fun next =>
    (returnsTo links start (available.erase next.1) next.1).map (next.1 :: ·)
termination_by available.length
decreasing_by
  have h : next.1 ∈ available := (List.mem_filter.1 next.2).1
  have hpos : 0 < available.length := List.length_pos_of_mem h
  rw [List.length_erase_of_mem h]
  omega

/-- Adds the keys that lead into the known ones, a number of times. -/
def growSources (links : String → List String) (keys : List String) :
    Nat → List String → List String
  | 0, known => known
  | rounds + 1, known =>
    growSources links keys rounds
      (keys.filter fun k => known.contains k || (links k).any known.contains)

/-- The keys among the given ones from which the start can be reached through them. -/
def sourcesOf (links : String → List String) (keys : List String) (start : String) :
    List String :=
  growSources links keys keys.length (keys.filter fun k => (links k).contains start)

namespace DependencyGraph

/-- The cycles whose least key is the given one. -/
def cyclesFrom (g : DependencyGraph) (ordered : List String) (start : String) :
    List (List String) :=
  let greater := ordered.filter fun k => start < k
  (returnsTo g.targets start (sourcesOf g.targets greater start) start).map (start :: ·)

/-- All elementary cycles, each from its least key on, in order. -/
def cycles (g : DependencyGraph) : List (List String) :=
  let ordered := (NameSet.ofList g.keys).toList
  ordered.flatMap (g.cyclesFrom ordered)

end DependencyGraph

end SourceAtlas.Graph
