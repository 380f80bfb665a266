/-
# Graphs under any requests

Nodes and edges are added in any order, under any keys, and some edges are refused because an end is
missing or an attribute has a reserved name. This module follows a graph through any list of such
requests. Whatever was asked, the views of the graph agree with each other: the list of edges, the
neighbours of a node in both directions and the test for an edge tell the same story, and no edge
dangles. Every request leaves what was there in its place, and a refused one leaves everything as it
was.

Unlike in a build, a node may stand under a key that is not its own.
-/

import SourceAtlas.Graph.Summary
import SourceAtlas.Proofs.Graph.Integrity

namespace SourceAtlas.Graph

namespace DependencyGraph

/-- The graph after an addition was asked for. An edge that is refused changes nothing. -/
def attempt (g : DependencyGraph) : Addition → DependencyGraph
  | .node key n => g.addNode key n
  | .edge e =>
    match g.addEdge e with
    | .ok after => after
    | .error _ => g

/-- The graph after a list of requests, refused ones among them. -/
def attemptAll (g : DependencyGraph) (requests : List Addition) : DependencyGraph :=
  requests.foldl attempt g

/-- The views of a graph agree: the list of edges, the test for an edge, the neighbours in both
directions and the records tell of the same pairs of ends. -/
structure IsConsistent (g : DependencyGraph) : Prop where
  ends_stored : ∀ e ∈ g.edges, e.source ∈ g.keys ∧ e.target ∈ g.keys
  pairs_nodup : (g.edges.map Edge.ends).Nodup
  hasEdge_iff : ∀ source target,
    g.hasEdge source target = true ↔ (source, target) ∈ g.edges.map Edge.ends
  mem_successors_iff : ∀ source target,
    (∃ after, g.successors source = .ok after ∧ target ∈ after) ↔ g.hasEdge source target = true
  mem_predecessors_iff : ∀ source target,
    (∃ before, g.predecessors target = .ok before ∧ source ∈ before) ↔
      g.hasEdge source target = true
  /-- The key of an edge is made of its ends, and no other attribute is called so. -/
  key_eq : ∀ e ∈ g.edges,
    (edgeDataRecord e).member? "key" = some (.text (e.source ++ "->" ++ e.target)) ∧
      ∀ extra ∈ e.attributes, extra.1 ≠ "key"

/-- Another graph has all nodes and edges of a graph in the same order. -/
structure Continues (g h : DependencyGraph) : Prop where
  keys : g.keys <+: h.keys
  edges : (g.edges.map Edge.ends).Sublist (h.edges.map Edge.ends)
  targets : ∀ key, g.targets key <+: h.targets key
  origins : ∀ key, g.origins key <+: h.origins key

theorem checkAttributes_eq_ok_iff {reserved : List String} {e : Edge} :
    checkAttributes reserved e = .ok () ↔
      ∀ name ∈ e.attributes.map Prod.fst, name ∉ reserved := by
  constructor
  · intro passed name given taken
    rw [checkAttributes] at passed
    split at passed
    · cases passed
    · rename_i nothing
      rw [List.find?_eq_none] at nothing
      exact nothing name given (List.contains_iff_mem.mpr taken)
  · exact checkAttributes_eq_ok

theorem checkEnds_cases (g : DependencyGraph) (e : Edge) :
    (e.source ∈ g.keys ∧ e.target ∈ g.keys ∧ g.checkEnds e = .ok ()) ∨
      ∃ missing, missing ∉ g.keys ∧ (missing = e.source ∨ missing = e.target) ∧
        g.checkEnds e = .error (.missingEnd e.source e.target missing) := by
  by_cases source : e.source ∈ g.keys
  · by_cases target : e.target ∈ g.keys
    · exact .inl ⟨source, target, checkEnds_eq_ok source target⟩
    · refine .inr ⟨e.target, target, .inr rfl, ?_⟩
      simp [checkEnds, hasNode, source, target]
  · refine .inr ⟨e.source, source, .inl rfl, ?_⟩
    simp [checkEnds, hasNode, source]

/-- An edge is added if its ends are stored and its attributes are free, and otherwise refused. -/
theorem addEdge_cases (g : DependencyGraph) (e : Edge) :
    (HasFreeAttributes e ∧ e.source ∈ g.keys ∧ e.target ∈ g.keys ∧
        g.addEdge e = .ok (g.apply (.edge e))) ∨
      (HasFreeAttributes e ∧ ∃ missing, missing ∉ g.keys ∧
        (missing = e.source ∨ missing = e.target) ∧
          g.addEdge e = .error (.missingEnd e.source e.target missing)) ∨
      (¬ HasFreeAttributes e ∧ ∃ fault, g.addEdge e = .error fault) := by
  by_cases free : HasFreeAttributes e
  · rcases g.checkEnds_cases e with ⟨source, target, -⟩ | ⟨missing, absent, which, refused⟩
    · exact .inl ⟨free, source, target, addEdge_eq_ok free source target⟩
    · refine .inr (.inl ⟨free, missing, absent, which, ?_⟩)
      rw [addEdge, checkAttributes_eq_ok fun name given => (free name given).1, refused]
      rfl
  · refine .inr (.inr ⟨free, ?_⟩)
    cases added : g.addEdge e with
    | error fault => exact ⟨fault, rfl⟩
    | ok after =>
        -- Both checks of the attributes were passed, so no name is reserved.
        exfalso
        rw [addEdge] at added
        cases requested : checkAttributes requestNames e with
        | error fault =>
            rw [requested] at added
            cases added
        | ok _ =>
            rw [requested] at added
            cases ends : g.checkEnds e with
            | error fault =>
                rw [ends] at added
                cases added
            | ok _ =>
                rw [ends] at added
                cases stored : checkAttributes storageNames e with
                | error fault =>
                    rw [stored] at added
                    cases added
                | ok _ =>
                    exact free fun name given =>
                      ⟨checkAttributes_eq_ok_iff.mp requested name given,
                        checkAttributes_eq_ok_iff.mp stored name given⟩

/-- A request adds what it asks for, or it is refused and changes nothing. -/
theorem attempt_cases (g : DependencyGraph) (request : Addition) :
    (∃ key n, request = .node key n ∧ g.attempt request = g.addNode key n) ∨
      (∃ e, request = .edge e ∧ HasFreeAttributes e ∧ e.source ∈ g.keys ∧ e.target ∈ g.keys ∧
        g.attempt request = g.apply (.edge e)) ∨
      g.attempt request = g := by
  cases request with
  | node key n => exact .inl ⟨key, n, rfl, rfl⟩
  | edge e =>
      rcases g.addEdge_cases e with
        ⟨free, source, target, added⟩ | ⟨-, _, -, -, refused⟩ | ⟨-, _, refused⟩
      · exact .inr (.inl ⟨e, rfl, free, source, target, by rw [attempt, added]⟩)
      · exact .inr (.inr (by rw [attempt, refused]))
      · exact .inr (.inr (by rw [attempt, refused]))

theorem mem_insertArc {e stored : Edge} {arcs : List Edge} (listed : stored ∈ insertArc e arcs) :
    stored ∈ arcs ∨ stored = e ∨
      ∃ old ∈ arcs, old.ends = e.ends ∧ stored = Edge.overwrite old e := by
  induction arcs with
  | nil => exact .inr (.inl (List.mem_singleton.mp listed))
  | cons first rest ih =>
      rw [insertArc] at listed
      split at listed
      · rename_i same
        rcases List.mem_cons.mp listed with here | later
        · exact .inr (.inr
            ⟨first, List.mem_cons_self, Edge.joins_eq_true_iff.mp same, here⟩)
        · exact .inl (List.mem_cons_of_mem _ later)
      · rcases List.mem_cons.mp listed with here | later
        · exact .inl (here ▸ List.mem_cons_self)
        · rcases ih later with known | new | ⟨old, known, same, merged⟩
          · exact .inl (List.mem_cons_of_mem _ known)
          · exact .inr (.inl new)
          · exact .inr (.inr ⟨old, List.mem_cons_of_mem _ known, same, merged⟩)

theorem mem_names_setAttribute {name x : String} {value : Json}
    {attributes : List (String × Json)}
    (listed : x ∈ (setAttribute name value attributes).map Prod.fst) :
    x = name ∨ x ∈ attributes.map Prod.fst := by
  induction attributes with
  | nil => exact .inl (by simpa [setAttribute] using listed)
  | cons first rest ih =>
      rw [setAttribute] at listed
      split at listed
      · exact .inr (by simpa using listed)
      · rcases List.mem_cons.mp listed with here | later
        · exact .inr (here ▸ List.mem_cons_self)
        · exact (ih later).imp_right fun known => List.mem_cons_of_mem _ known

theorem hasFreeAttributes_overwrite {old new : Edge} (oldFree : HasFreeAttributes old)
    (newFree : HasFreeAttributes new) : HasFreeAttributes (Edge.overwrite old new) := by
  have names (added : List (String × Json)) (known : List (String × Json)) {x : String}
      (listed : x ∈ (added.foldl (fun all a => setAttribute a.1 a.2 all) known).map Prod.fst) :
      x ∈ added.map Prod.fst ∨ x ∈ known.map Prod.fst := by
    induction added generalizing known with
    | nil => exact .inr listed
    | cons first rest ih =>
        rcases ih _ listed with later | settled
        · exact .inl (List.mem_cons_of_mem _ later)
        · rcases mem_names_setAttribute settled with here | before
          · exact .inl (here ▸ List.mem_cons_self)
          · exact .inr before
  intro x listed
  rcases names new.attributes old.attributes listed with given | before
  · exact newFree x given
  · exact oldFree x before

/-- Nothing occurs twice, no edge dangles, and no attribute hides what belongs to every edge. -/
structure Intact (g : DependencyGraph) : Prop where
  keys_nodup : g.keys.Nodup
  ends_nodup : (g.arcs.map Edge.ends).Nodup
  ends_stored : ∀ e ∈ g.arcs, e.source ∈ g.keys ∧ e.target ∈ g.keys
  free : ∀ e ∈ g.arcs, HasFreeAttributes e

theorem intact_empty : Intact {} where
  keys_nodup := List.nodup_nil
  ends_nodup := List.nodup_nil
  ends_stored _ stored := absurd stored List.not_mem_nil
  free _ stored := absurd stored List.not_mem_nil

theorem Intact.addNode {g : DependencyGraph} (intact : g.Intact) (key : String) (n : Node) :
    (g.addNode key n).Intact where
  keys_nodup := by
    rw [keys_addNode]
    exact nodup_append_new intact.keys_nodup key
  ends_nodup := intact.ends_nodup
  ends_stored e stored := by
    have known : ∀ k ∈ g.keys, k ∈ (g.addNode key n).keys := by
      intro k listed
      rw [keys_addNode]
      split
      · exact listed
      · exact List.mem_append_left _ listed
    have ends := intact.ends_stored e stored
    exact ⟨known _ ends.1, known _ ends.2⟩
  free := intact.free

theorem Intact.addEdge {g : DependencyGraph} (intact : g.Intact) {e : Edge}
    (free : HasFreeAttributes e) (source : e.source ∈ g.keys) (target : e.target ∈ g.keys) :
    (g.apply (.edge e)).Intact where
  keys_nodup := intact.keys_nodup
  ends_nodup := by
    rw [apply, ends_insertArc]
    exact nodup_append_new intact.ends_nodup e.ends
  ends_stored stored listed := by
    rcases mem_insertArc listed with known | rfl | ⟨old, known, -, rfl⟩
    · exact intact.ends_stored stored known
    · exact ⟨source, target⟩
    · exact intact.ends_stored old known
  free stored listed := by
    rcases mem_insertArc listed with known | rfl | ⟨old, known, -, rfl⟩
    · exact intact.free stored known
    · exact free
    · exact hasFreeAttributes_overwrite (intact.free old known) free

theorem Intact.attempt {g : DependencyGraph} (intact : g.Intact) (request : Addition) :
    (g.attempt request).Intact := by
  rcases g.attempt_cases request with
    ⟨key, n, -, after⟩ | ⟨e, -, free, source, target, after⟩ | after
  · rw [after]
    exact intact.addNode key n
  · rw [after]
    exact intact.addEdge free source target
  · rw [after]
    exact intact

theorem Intact.attemptAll {g : DependencyGraph} (intact : g.Intact) (requests : List Addition) :
    (g.attemptAll requests).Intact := by
  induction requests generalizing g with
  | nil => exact intact
  | cons request rest ih => exact ih (intact.attempt request)

/-! ## The views of a graph -/

theorem targets_eq (g : DependencyGraph) (key : String) :
    g.targets key = ((g.arcs.map Edge.ends).filter (·.1 = key)).map Prod.snd := by
  rw [targets, edgesFrom, List.filter_map, List.map_map]
  rfl

theorem origins_eq (g : DependencyGraph) (key : String) :
    g.origins key = ((g.arcs.map Edge.ends).filter (·.2 = key)).map Prod.fst := by
  rw [origins, List.filter_map, List.map_map]
  rfl

theorem ends_edges (g : DependencyGraph) :
    g.edges.map Edge.ends = g.keys.flatMap fun key => (g.targets key).map (Prod.mk key) := by
  rw [edges, List.map_flatMap]
  congr 1
  funext key
  rw [targets, List.map_map]
  refine List.map_congr_left fun e listed => ?_
  have leaves : e.source = key := by simpa using (List.mem_filter.mp listed).2
  rw [Edge.ends, leaves]
  rfl

theorem hasEdge_eq_true_iff {g : DependencyGraph} {source target : String} :
    g.hasEdge source target = true ↔ (source, target) ∈ g.arcs.map Edge.ends := by
  rw [hasEdge, List.any_eq_true, List.mem_map]
  simp only [Edge.joins_eq_true_iff]

theorem mem_targets_iff {g : DependencyGraph} {source target : String} :
    target ∈ g.targets source ↔ g.hasEdge source target = true := by
  rw [hasEdge_eq_true_iff, targets_eq]
  simp

theorem mem_origins_iff {g : DependencyGraph} {source target : String} :
    source ∈ g.origins target ↔ g.hasEdge source target = true := by
  rw [hasEdge_eq_true_iff, origins_eq]
  simp

/-- Where no edge dangles, the list of edges has them all. -/
theorem mem_edges_iff {g : DependencyGraph}
    (ends_stored : ∀ e ∈ g.arcs, e.source ∈ g.keys ∧ e.target ∈ g.keys) {e : Edge} :
    e ∈ g.edges ↔ e ∈ g.arcs := by
  rw [edges, List.mem_flatMap]
  simp only [edgesFrom, List.mem_filter, beq_iff_eq]
  constructor
  · rintro ⟨key, -, stored, -⟩
    exact stored
  · intro stored
    exact ⟨e.source, (ends_stored e stored).1, stored, rfl⟩

/-- The list of edges orders the stored edges by the nodes that they leave. -/
theorem edges_perm_arcs {g : DependencyGraph} (keys_nodup : g.keys.Nodup)
    (ends_nodup : (g.arcs.map Edge.ends).Nodup)
    (ends_stored : ∀ e ∈ g.arcs, e.source ∈ g.keys ∧ e.target ∈ g.keys) :
    g.edges.Perm g.arcs := by
  have arcs_nodup : g.arcs.Nodup := List.Nodup.of_map _ ends_nodup
  refine (List.perm_ext_iff_of_nodup ?_ arcs_nodup).mpr fun _ => mem_edges_iff ends_stored
  rw [edges, List.nodup_flatMap]
  refine ⟨fun key _ => arcs_nodup.filter _, keys_nodup.imp ?_⟩
  intro first second apart e leaves alsoLeaves
  have here : e.source = first := by simpa using (List.mem_filter.mp leaves).2
  have there : e.source = second := by simpa using (List.mem_filter.mp alsoLeaves).2
  exact apart (here.symm.trans there)

section Views

variable {g : DependencyGraph} (intact : g.Intact)
include intact

theorem Intact.edges_perm_arcs : g.edges.Perm g.arcs :=
  DependencyGraph.edges_perm_arcs intact.keys_nodup intact.ends_nodup intact.ends_stored

theorem Intact.ends_mem_keys {source target : String}
    (linked : g.hasEdge source target = true) : source ∈ g.keys ∧ target ∈ g.keys := by
  obtain ⟨e, stored, same⟩ := List.mem_map.mp (hasEdge_eq_true_iff.mp linked)
  have ends := intact.ends_stored e stored
  rw [Edge.ends, Prod.mk.injEq] at same
  rwa [same.1, same.2] at ends

theorem Intact.isConsistent : g.IsConsistent where
  ends_stored e listed := intact.ends_stored e ((mem_edges_iff intact.ends_stored).mp listed)
  pairs_nodup := (intact.edges_perm_arcs.map Edge.ends).nodup_iff.mpr intact.ends_nodup
  hasEdge_iff source target := by
    rw [hasEdge_eq_true_iff, (intact.edges_perm_arcs.map Edge.ends).mem_iff]
  mem_successors_iff source target := by
    constructor
    · rintro ⟨after, found, listed⟩
      rw [successors, requireNode] at found
      split at found
      · cases found
        exact mem_targets_iff.mp listed
      · cases found
    · intro linked
      refine ⟨g.targets source, ?_, mem_targets_iff.mpr linked⟩
      have stored : g.hasNode source = true :=
        List.contains_iff_mem.mpr (intact.ends_mem_keys linked).1
      rw [successors, requireNode, if_pos stored]
      rfl
  mem_predecessors_iff source target := by
    constructor
    · rintro ⟨before, found, listed⟩
      rw [predecessors, requireNode] at found
      split at found
      · cases found
        exact mem_origins_iff.mp listed
      · cases found
    · intro linked
      refine ⟨g.origins target, ?_, mem_origins_iff.mpr linked⟩
      have stored : g.hasNode target = true :=
        List.contains_iff_mem.mpr (intact.ends_mem_keys linked).2
      rw [predecessors, requireNode, if_pos stored]
      rfl
  key_eq e listed := by
    refine ⟨rfl, fun extra given named => ?_⟩
    have free := intact.free e ((mem_edges_iff intact.ends_stored).mp listed) extra.1
      (List.mem_map.mpr ⟨extra, given, rfl⟩)
    rw [named] at free
    exact free.2 (by decide)

end Views

/-- Longer lists for more items contain what shorter lists for fewer items did, in its order. -/
theorem sublist_flatMap_of_prefix {α β : Type} {items more : List α} (grown : items <+: more)
    {f h : α → List β} (longer : ∀ a, (f a).Sublist (h a)) :
    (items.flatMap f).Sublist (more.flatMap h) := by
  obtain ⟨new, rfl⟩ := grown
  rw [List.flatMap_append]
  refine List.Sublist.trans ?_ (List.sublist_append_left _ _)
  induction items with
  | nil => exact List.Sublist.refl _
  | cons a rest ih =>
      rw [List.flatMap_cons, List.flatMap_cons]
      exact (longer a).append ih

/-- All views keep their order if the keys and the pairs of ends do. -/
theorem continues_of_prefix {g h : DependencyGraph} (keys : g.keys <+: h.keys)
    (ends : g.arcs.map Edge.ends <+: h.arcs.map Edge.ends) : g.Continues h := by
  have targets (key : String) : g.targets key <+: h.targets key := by
    rw [targets_eq, targets_eq]
    exact (ends.filter _).map _
  have origins (key : String) : g.origins key <+: h.origins key := by
    rw [origins_eq, origins_eq]
    exact (ends.filter _).map _
  refine ⟨keys, ?_, targets, origins⟩
  rw [ends_edges, ends_edges]
  exact sublist_flatMap_of_prefix keys fun key => ((targets key).map _).sublist

theorem prefix_append_new {α : Type} (items : List α) (item : α) [Decidable (item ∈ items)] :
    items <+: if item ∈ items then items else items ++ [item] := by
  split
  · exact List.prefix_refl _
  · exact List.prefix_append _ _

theorem continues_attempt (g : DependencyGraph) (request : Addition) :
    g.Continues (g.attempt request) := by
  rcases g.attempt_cases request with ⟨key, n, -, after⟩ | ⟨e, -, -, -, -, after⟩ | after
  · rw [after]
    refine continues_of_prefix ?_ (List.prefix_refl _)
    rw [keys_addNode]
    exact prefix_append_new _ _
  · rw [after]
    refine continues_of_prefix (List.prefix_refl _) ?_
    rw [apply, ends_insertArc]
    exact prefix_append_new _ _
  · rw [after]
    exact continues_of_prefix (List.prefix_refl _) (List.prefix_refl _)

end DependencyGraph

open DependencyGraph in
/-- **Whatever a graph is asked, its views agree and nothing is lost.** After any requests, refused
ones among them, no edge dangles, no pair of ends is listed twice, the neighbours of a node in both
directions are those of the edges, and every edge has its own key. The next request keeps all nodes
and edges in their order. An edge without reserved attributes is added if and only if both its ends
are stored; otherwise the fault names an end that is not, and the graph stays as it was. -/
theorem isConsistent_attemptAll (requests : List Addition) :
    let g := attemptAll {} requests
    g.IsConsistent ∧ (∀ request, g.Continues (g.attempt request)) ∧
      ∀ e, HasFreeAttributes e →
        ((e.source ∈ g.keys ∧ e.target ∈ g.keys) ∧ g.addEdge e = .ok (g.attempt (.edge e))) ∨
          ∃ missing, missing ∉ g.keys ∧ (missing = e.source ∨ missing = e.target) ∧
            g.addEdge e = .error (.missingEnd e.source e.target missing) ∧
              g.attempt (.edge e) = g := by
  intro g
  have intact : g.Intact := intact_empty.attemptAll requests
  refine ⟨intact.isConsistent, g.continues_attempt, fun e free => ?_⟩
  rcases g.addEdge_cases e with
    ⟨-, source, target, added⟩ | ⟨-, missing, absent, which, refused⟩ | ⟨bound, -⟩
  · exact .inl ⟨⟨source, target⟩, by rw [attempt, added]⟩
  · exact .inr ⟨missing, absent, which, refused, by rw [attempt, refused]⟩
  · exact absurd free bound

end SourceAtlas.Graph
