/-
# What a history of additions leaves behind

A graph changes in two ways only: a node is put under a key, or an edge is put between two ends.
This module runs a list of such additions and says what each key and each pair of ends holds
afterwards. The answer depends on nothing but the additions made under that key or between those
ends, in their order: everything else in the history leaves them alone.

Whether an edge may be added at all is not decided here. An addition of an edge is the change that
is made once its ends have been checked.
-/

import Mathlib.Data.List.Nodup
import SourceAtlas.Graph.Build

namespace SourceAtlas.Graph

/-- One change of a graph. Everything that builds a graph is a row of these, so what one of them
preserves is preserved by any build. -/
inductive Addition where
  /-- A node is put under a key. -/
  | node (key : String) (n : Node)
  /-- An edge is put between its ends. -/
  | edge (e : Edge)

namespace Addition

def nodeAt? (key : String) : Addition → Option Node
  | .node k n => if k = key then some n else none
  | .edge _ => none

def edgeBetween? (source target : String) : Addition → Option Edge
  | .node _ _ => none
  | .edge e => if e.joins source target then some e else none

end Addition

/-- The nodes that a history puts under a key, in their order. -/
def nodesAt (key : String) (additions : List Addition) : List Node :=
  additions.filterMap (Addition.nodeAt? key)

/-- The edges that a history puts between two ends, in their order. -/
def edgesBetween (source target : String) (additions : List Addition) : List Edge :=
  additions.filterMap (Addition.edgeBetween? source target)

theorem mem_nodesAt {key : String} {n : Node} {additions : List Addition} :
    n ∈ nodesAt key additions ↔ .node key n ∈ additions := by
  rw [nodesAt, List.mem_filterMap]
  constructor
  · rintro ⟨a, made, put⟩
    cases a with
    | node k m =>
        simp only [Addition.nodeAt?, Option.ite_none_right_eq_some, Option.some.injEq] at put
        obtain ⟨rfl, rfl⟩ := put
        exact made
    | edge e => simp [Addition.nodeAt?] at put
  · intro made
    exact ⟨_, made, by simp [Addition.nodeAt?]⟩

theorem mem_edgesBetween {source target : String} {e : Edge} {additions : List Addition} :
    e ∈ edgesBetween source target additions ↔
      .edge e ∈ additions ∧ e.joins source target := by
  rw [edgesBetween, List.mem_filterMap]
  constructor
  · rintro ⟨a, made, put⟩
    cases a with
    | node k m => simp [Addition.edgeBetween?] at put
    | edge e' =>
        simp only [Addition.edgeBetween?, Option.ite_none_right_eq_some, Option.some.injEq] at put
        obtain ⟨joined, rfl⟩ := put
        exact ⟨made, joined⟩
  · rintro ⟨made, joined⟩
    exact ⟨_, made, by simp [Addition.edgeBetween?, joined]⟩

/-- What a key holds once a node has been put under it. -/
def Node.settle : Option Node → Node → Option Node
  | none, new => some new
  | some old, new => some (old.absorb new)

/-- What stands between two ends once an edge has been put there. -/
def Edge.settle : Option Edge → Edge → Option Edge
  | none, new => some new
  | some old, new => some (DependencyGraph.Edge.overwrite old new)

def Edge.ends (e : Edge) : String × String := (e.source, e.target)

theorem Edge.joins_eq_true_iff {source target : String} {e : Edge} :
    e.joins source target = true ↔ e.ends = (source, target) := by
  simp [Edge.joins, Edge.ends]

namespace DependencyGraph

def apply (g : DependencyGraph) : Addition → DependencyGraph
  | .node key n => g.addNode key n
  | .edge e => { g with arcs := insertArc e g.arcs }

def applyAll (g : DependencyGraph) (additions : List Addition) : DependencyGraph :=
  additions.foldl apply g

@[simp]
theorem applyAll_nil (g : DependencyGraph) : g.applyAll [] = g := rfl

@[simp]
theorem applyAll_cons (g : DependencyGraph) (a : Addition) (rest : List Addition) :
    g.applyAll (a :: rest) = (g.apply a).applyAll rest := rfl

theorem applyAll_append (g : DependencyGraph) (first second : List Addition) :
    g.applyAll (first ++ second) = (g.applyAll first).applyAll second :=
  List.foldl_append

theorem lookup_insertEntry (key k : String) (n : Node) (entries : List (String × Node)) :
    (insertEntry key n entries).lookup k =
      if k = key then Node.settle (entries.lookup key) n else entries.lookup k := by
  induction entries with
  | nil =>
      by_cases same : k = key
      · subst same
        simp [insertEntry, Node.settle]
      · simp [insertEntry, same, List.lookup_cons, beq_false_of_ne same]
  | cons entry rest ih =>
      obtain ⟨head, old⟩ := entry
      by_cases here : head = key
      · subst here
        by_cases same : k = head
        · subst same
          simp [insertEntry, Node.settle]
        · simp [insertEntry, same, List.lookup_cons, beq_false_of_ne same]
      · have away : ¬ key = head := fun h => here h.symm
        by_cases front : k = head
        · subst front
          simp [insertEntry, here]
        · simp [insertEntry, here, List.lookup_cons, beq_false_of_ne front, beq_false_of_ne away,
            ih]

theorem keys_insertEntry (key : String) (n : Node) (entries : List (String × Node)) :
    (insertEntry key n entries).map Prod.fst =
      if key ∈ entries.map Prod.fst then entries.map Prod.fst
      else entries.map Prod.fst ++ [key] := by
  induction entries with
  | nil => simp [insertEntry]
  | cons entry rest ih =>
      obtain ⟨head, old⟩ := entry
      by_cases here : head = key
      · simp [insertEntry, here]
      · have away : ¬ key = head := fun h => here h.symm
        simp only [insertEntry, beq_false_of_ne here, Bool.false_eq_true, ↓reduceIte,
          List.map_cons, ih, List.mem_cons, away, false_or]
        split <;> simp

/-- A key that is new comes last, and a known key keeps its place. -/
theorem keys_addNode (g : DependencyGraph) (key : String) (n : Node) :
    (g.addNode key n).keys = if key ∈ g.keys then g.keys else g.keys ++ [key] :=
  keys_insertEntry key n g.entries

theorem node?_addNode (g : DependencyGraph) (key k : String) (n : Node) :
    (g.addNode key n).node? k =
      if k = key then Node.settle (g.node? key) n else g.node? k :=
  lookup_insertEntry key k n g.entries

theorem node?_eq_none_iff {g : DependencyGraph} {key : String} :
    g.node? key = none ↔ key ∉ g.keys := by
  rw [node?, List.lookup_eq_none_iff, keys, List.mem_map]
  constructor
  · rintro absent ⟨entry, stored, rfl⟩
    simpa using absent entry stored
  · intro absent entry stored
    exact bne_iff_ne.mpr fun same => absent ⟨entry, stored, same.symm⟩

theorem mem_keys_iff {g : DependencyGraph} {key : String} :
    key ∈ g.keys ↔ ∃ n, g.node? key = some n := by
  rw [← Option.ne_none_iff_exists', ne_eq, node?_eq_none_iff, not_not]

theorem node?_of_mem_entries {g : DependencyGraph} (distinct : g.keys.Nodup) {key : String}
    {n : Node} (stored : (key, n) ∈ g.entries) : g.node? key = some n := by
  obtain ⟨entries, arcs⟩ := g
  induction entries with
  | nil => simp at stored
  | cons entry rest ih =>
      obtain ⟨head, old⟩ := entry
      obtain ⟨fresh, distinct⟩ := List.nodup_cons.mp distinct
      rcases List.mem_cons.mp stored with here | below
      · cases here
        simp [node?]
      · have away : key ≠ head := by
          rintro rfl
          exact fresh (List.mem_map.mpr ⟨_, below, rfl⟩)
        simpa [node?, List.lookup_cons, beq_false_of_ne away] using ih distinct below

theorem mem_entries_of_node? {g : DependencyGraph} {key : String} {n : Node}
    (found : g.node? key = some n) : (key, n) ∈ g.entries := by
  obtain ⟨before, after, split, -⟩ := List.lookup_eq_some_iff.mp found
  simp [split]

theorem find?_insertArc (e : Edge) (source target : String) (arcs : List Edge) :
    (insertArc e arcs).find? (Edge.joins source target) =
      if e.joins source target then Edge.settle (arcs.find? (Edge.joins source target)) e
      else arcs.find? (Edge.joins source target) := by
  induction arcs with
  | nil =>
      by_cases here : e.joins source target <;> simp [insertArc, Edge.settle, here]
  | cons old rest ih =>
      by_cases same : old.joins e.source e.target
      · have ends : old.ends = e.ends := Edge.joins_eq_true_iff.mp same
        have joined : (Edge.overwrite old e).joins source target = old.joins source target := rfl
        have agree : old.joins source target = e.joins source target := by
          rw [Bool.eq_iff_iff, Edge.joins_eq_true_iff, Edge.joins_eq_true_iff, ends]
        by_cases here : e.joins source target
        · simp [insertArc, same, joined, agree, here, Edge.settle]
        · simp [insertArc, same, joined, agree, here]
      · by_cases front : old.joins source target
        · have apart : ¬ e.joins source target := by
            intro here
            rw [Edge.joins_eq_true_iff] at same front here
            exact same (front.trans here.symm)
          simp [insertArc, same, front, apart]
        · simp [insertArc, same, front, ih]

theorem ends_insertArc (e : Edge) (arcs : List Edge) :
    (insertArc e arcs).map Edge.ends =
      if e.ends ∈ arcs.map Edge.ends then arcs.map Edge.ends
      else arcs.map Edge.ends ++ [e.ends] := by
  induction arcs with
  | nil => simp [insertArc]
  | cons old rest ih =>
      by_cases same : old.joins e.source e.target
      · have ends : old.ends = e.ends := Edge.joins_eq_true_iff.mp same
        have kept : (Edge.overwrite old e).ends = old.ends := rfl
        simp [insertArc, same, kept, ends]
      · have away : ¬ e.ends = old.ends := fun h => same (Edge.joins_eq_true_iff.mpr h.symm)
        simp only [insertArc, same, Bool.false_eq_true, ↓reduceIte, List.map_cons, ih,
          List.mem_cons, away, false_or]
        split <;> simp

theorem edge?_eq_none_iff {g : DependencyGraph} {source target : String} :
    g.edge? source target = none ↔ (source, target) ∉ g.arcs.map Edge.ends := by
  simp [edge?, Edge.joins_eq_true_iff]

theorem edge?_of_mem_arcs {g : DependencyGraph} (distinct : (g.arcs.map Edge.ends).Nodup)
    {e : Edge} (stored : e ∈ g.arcs) : g.edge? e.source e.target = some e := by
  obtain ⟨entries, arcs⟩ := g
  induction arcs with
  | nil => simp at stored
  | cons old rest ih =>
      obtain ⟨fresh, distinct⟩ := List.nodup_cons.mp distinct
      rcases List.mem_cons.mp stored with rfl | below
      · simp [edge?, Edge.joins]
      · have away : ¬ old.joins e.source e.target := by
          intro same
          have ends : old.ends = e.ends := Edge.joins_eq_true_iff.mp same
          exact fresh (ends ▸ List.mem_map.mpr ⟨e, below, rfl⟩)
        simpa [edge?, away] using ih distinct below

theorem mem_arcs_iff_edge? {g : DependencyGraph} (distinct : (g.arcs.map Edge.ends).Nodup)
    {e : Edge} : e ∈ g.arcs ↔ g.edge? e.source e.target = some e :=
  ⟨edge?_of_mem_arcs distinct, List.mem_of_find?_eq_some⟩

/-- What a key holds after a history is what the nodes put under that key settle to. -/
theorem node?_applyAll (g : DependencyGraph) (additions : List Addition) (key : String) :
    (g.applyAll additions).node? key = (nodesAt key additions).foldl Node.settle (g.node? key) := by
  induction additions generalizing g with
  | nil => rfl
  | cons a rest ih =>
      rw [applyAll_cons, ih]
      cases a with
      | node k n =>
          by_cases here : k = key
          · subst here
            simp [nodesAt, Addition.nodeAt?, apply, node?_addNode]
          · have away : ¬ key = k := fun h => here h.symm
            simp [nodesAt, Addition.nodeAt?, apply, node?_addNode, here, away]
      | edge e => rfl

/-- What stands between two ends after a history is what the edges put there settle to. -/
theorem edge?_applyAll (g : DependencyGraph) (additions : List Addition)
    (source target : String) :
    (g.applyAll additions).edge? source target =
      (edgesBetween source target additions).foldl Edge.settle (g.edge? source target) := by
  induction additions generalizing g with
  | nil => rfl
  | cons a rest ih =>
      rw [applyAll_cons, ih]
      cases a with
      | node k n => rfl
      | edge e =>
          by_cases here : e.joins source target
          · simp [edgesBetween, Addition.edgeBetween?, apply, edge?, find?_insertArc, here]
          · simp [edgesBetween, Addition.edgeBetween?, apply, edge?, find?_insertArc, here]

theorem foldl_settle_eq_none_iff {start : Option Node} {nodes : List Node} :
    nodes.foldl Node.settle start = none ↔ start = none ∧ nodes = [] := by
  induction nodes generalizing start with
  | nil => simp
  | cons n rest ih => cases start <;> simp [ih, Node.settle]

theorem foldl_edgeSettle_eq_none_iff {start : Option Edge} {edges : List Edge} :
    edges.foldl Edge.settle start = none ↔ start = none ∧ edges = [] := by
  induction edges generalizing start with
  | nil => simp
  | cons e rest ih => cases start <;> simp [ih, Edge.settle]

/-- A history adds the keys that it puts nodes under and takes none away. -/
theorem mem_keys_applyAll {g : DependencyGraph} {additions : List Addition} {key : String} :
    key ∈ (g.applyAll additions).keys ↔ key ∈ g.keys ∨ ∃ n, .node key n ∈ additions := by
  have put : nodesAt key additions ≠ [] ↔ ∃ n, .node key n ∈ additions := by
    simp only [← mem_nodesAt]
    exact ⟨List.exists_mem_of_ne_nil _, fun ⟨_, put⟩ => List.ne_nil_of_mem put⟩
  rw [← put, ← not_iff_not, ← node?_eq_none_iff, node?_applyAll, foldl_settle_eq_none_iff,
    node?_eq_none_iff, not_or, not_not]

/-- What comes last only if it is new does not come twice. -/
theorem nodup_append_new {α : Type} {items : List α} (distinct : items.Nodup) (item : α)
    [Decidable (item ∈ items)] : (if item ∈ items then items else items ++ [item]).Nodup := by
  split
  next => exact distinct
  next fresh =>
    rw [← List.concat_eq_append]
    exact (List.nodup_concat _ _).mpr ⟨fresh, distinct⟩

theorem nodup_keys_applyAll {g : DependencyGraph} (distinct : g.keys.Nodup)
    (additions : List Addition) : (g.applyAll additions).keys.Nodup := by
  induction additions generalizing g with
  | nil => exact distinct
  | cons a rest ih =>
      apply ih
      cases a with
      | node key n =>
          rw [apply, keys_addNode]
          exact nodup_append_new distinct key
      | edge e => exact distinct

theorem nodup_ends_applyAll {g : DependencyGraph} (distinct : (g.arcs.map Edge.ends).Nodup)
    (additions : List Addition) : ((g.applyAll additions).arcs.map Edge.ends).Nodup := by
  induction additions generalizing g with
  | nil => exact distinct
  | cons a rest ih =>
      apply ih
      cases a with
      | node key n => exact distinct
      | edge e =>
          rw [apply, ends_insertArc]
          exact nodup_append_new distinct e.ends

end DependencyGraph

end SourceAtlas.Graph
