/-
# A wider scope

What counts as internal decides which records are linked. If more packages count, more records of
the same files are linked, in between the ones that were linked before. A link may then lead to a
key that holds something already: a file, a declaration, or the placeholder of another record.
Whatever stands there keeps its variant, and all but placeholders keep everything.

So the graph of a wider scope has every node and every edge of the narrower one, and what it has
besides are placeholders and imports. What may differ is how a shared placeholder is named and
whether it is broken, and whether a containment was drawn over by an import.
-/

import SourceAtlas.Proofs.Graph.Reparsing

namespace SourceAtlas.Graph

/-- A scope is within another one that has the same root, all its packages, and the same start of
names if it has one at all. -/
structure InternalScope.IsWithin (narrow wide : InternalScope) : Prop where
  root : wide.root = narrow.root
  packages : ∀ package ∈ narrow.packages, package ∈ wide.packages
  scope : wide.scope = narrow.scope ∨ narrow.scope.getD "" = ""

theorem startsWithGiven_empty (text : String) : startsWithGiven text "" = false := rfl

namespace InternalScope.IsWithin

variable {narrow wide : InternalScope} (within : narrow.IsWithin wide)
include within

theorem isInternal {specifier : String} (internal : narrow.isInternal specifier = true) :
    wide.isInternal specifier = true := by
  simp only [InternalScope.isInternal, Bool.or_eq_true] at internal ⊢
  rcases internal with ((relative | rooted) | listed) | named
  · exact .inl (.inl (.inl relative))
  · rw [← within.root] at rooted
    exact .inl (.inl (.inr rooted))
  · rw [List.contains_iff_mem] at listed ⊢
    exact .inl (.inr (within.packages specifier listed))
  · rcases within.scope with same | none
    · rw [← same] at named
      exact .inr named
    · rw [none, startsWithGiven_empty] at named
      cases named

theorem internalRecords_sublist (records : List ImportRecord) :
    (narrow.internalRecords records).Sublist (wide.internalRecords records) := by
  apply List.monotone_filter_right
  intro r internal
  exact within.isInternal internal

/-- Everything that links add in a scope is added in a wider one. -/
theorem mem_linkAdditions {g : DependencyGraph} {a : Addition}
    (made : a ∈ g.linkAdditions narrow) : a ∈ g.linkAdditions wide := by
  rw [DependencyGraph.linkAdditions, List.mem_flatMap] at made ⊢
  obtain ⟨file, listed, added⟩ := made
  rw [List.mem_flatMap] at added
  obtain ⟨r, internal, here⟩ := added
  refine ⟨file, listed, List.mem_flatMap.mpr ⟨r, ?_, here⟩⟩
  exact (within.internalRecords_sublist file.2).subset internal

end InternalScope.IsWithin

namespace DependencyGraph

/-- A graph is within another one that has its nodes and edges and adds placeholders and imports
only. -/
structure IsWithin (g h : DependencyGraph) : Prop where
  /-- Every key is kept, with a node of the same variant. -/
  node_kept : ∀ key n, g.node? key = some n → ∃ m, h.node? key = some m ∧ m.kind = n.kind
  /-- Files, components and utilities are the same. -/
  solid_same : ∀ key n, n.kind ≠ .module → (g.node? key = some n ↔ h.node? key = some n)
  /-- Every other node is a placeholder. -/
  node_added : ∀ key m, h.node? key = some m → g.node? key = none → m.kind = .module
  /-- Every pair of ends is kept. -/
  edge_kept : ∀ source target, g.hasEdge source target = true → h.hasEdge source target = true
  /-- Every other edge is an import. -/
  edge_added : ∀ e ∈ h.edges, g.hasEdge e.source e.target = false → e.kind = .imports

theorem hasEdge_eq_false_iff {g : DependencyGraph} {source target : String} :
    g.hasEdge source target = false ↔ g.edge? source target = none := by
  rw [← Bool.not_eq_true, hasEdge_eq_true_iff, edge?_eq_none_iff]

/-- A history adds the pairs of ends that it draws edges between and takes none away. -/
theorem hasEdge_applyAll_eq_false_iff {g : DependencyGraph} {additions : List Addition}
    {source target : String} :
    (g.applyAll additions).hasEdge source target = false ↔
      g.hasEdge source target = false ∧ edgesBetween source target additions = [] := by
  rw [hasEdge_eq_false_iff, hasEdge_eq_false_iff, edge?_applyAll, foldl_edgeSettle_eq_none_iff]

section Solid

variable {g h : DependencyGraph}
  (same : ∀ key, (h.node? key).filter Node.isSolid = (g.node? key).filter Node.isSolid)
include same

/-- What is no placeholder in one graph is the same in the other. -/
theorem node?_eq_some_iff_of_solid {key : String} {n : Node} (solid : n.kind ≠ .module) :
    g.node? key = some n ↔ h.node? key = some n := by
  have isSolid : n.isSolid = true := bne_iff_ne.mpr solid
  have filtered (graph : DependencyGraph) :
      graph.node? key = some n ↔ (graph.node? key).filter Node.isSolid = some n := by
    rw [Option.filter_eq_some_iff, and_iff_left isSolid]
  rw [filtered g, filtered h, same]

/-- Nodes under one key are of one variant, whether they are placeholders or not. -/
theorem kind_eq_of_solid {key : String} {n m : Node} (found : g.node? key = some n)
    (also : h.node? key = some m) : m.kind = n.kind := by
  by_cases loose : m.kind = .module
  · by_cases solid : n.kind = .module
    · rw [loose, solid]
    · cases also.symm.trans ((node?_eq_some_iff_of_solid same solid).mp found)
      rfl
  · cases found.symm.trans ((node?_eq_some_iff_of_solid same loose).mpr also)
    rfl

end Solid

/-- **Links of a wider scope.** In whatever graph the files are linked, linking them in a wider
scope keeps all that the narrower scope leads to, and adds placeholders and imports only. -/
theorem Sound.isWithin_linked {g : DependencyGraph} (sound : g.Sound)
    {narrow wide : InternalScope} (within : narrow.IsWithin wide) :
    (g.applyAll (g.linkAdditions narrow)).IsWithin (g.applyAll (g.linkAdditions wide)) := by
  have same (key : String) :
      ((g.applyAll (g.linkAdditions wide)).node? key).filter Node.isSolid =
        ((g.applyAll (g.linkAdditions narrow)).node? key).filter Node.isSolid := by
    rw [filter_isSolid_node?_applyAll_linkAdditions, filter_isSolid_node?_applyAll_linkAdditions]
  constructor
  case node_kept =>
    intro key n found
    have kept : key ∈ (g.applyAll (g.linkAdditions wide)).keys := by
      have stored := mem_keys_iff.mpr ⟨n, found⟩
      rw [mem_keys_applyAll] at stored ⊢
      apply stored.imp_right
      exact Exists.imp fun m put => within.mem_linkAdditions put
    obtain ⟨m, also⟩ := mem_keys_iff.mp kept
    exact ⟨m, also, kind_eq_of_solid same found also⟩
  case solid_same =>
    intro key n solid
    exact node?_eq_some_iff_of_solid same solid
  case node_added =>
    intro key m found absent
    by_contra solid
    rw [← node?_eq_some_iff_of_solid same solid, absent] at found
    cases found
  case edge_kept =>
    intro source target drawn
    by_contra missing
    rw [Bool.not_eq_true, hasEdge_applyAll_eq_false_iff] at missing
    have nothing : edgesBetween source target (g.linkAdditions narrow) = [] := by
      rw [List.eq_nil_iff_forall_not_mem]
      intro e between
      obtain ⟨made, joined⟩ := mem_edgesBetween.mp between
      have also := mem_edgesBetween.mpr ⟨within.mem_linkAdditions made, joined⟩
      rw [missing.2] at also
      cases also
    rw [hasEdge_applyAll_eq_false_iff.mpr ⟨missing.1, nothing⟩] at drawn
    cases drawn
  case edge_added =>
    intro e listed absent
    have linked := sound.applyAll_linkAdditions wide
    have stored := (mem_edges_iff linked.ends_stored).mp listed
    have found := edge?_of_mem_arcs linked.ends_nodup stored
    have before := (hasEdge_applyAll_eq_false_iff.mp absent).1
    rw [hasEdge_eq_false_iff] at before
    -- Nothing was drawn between these ends before the links, so a link is there, and is an import.
    have kind := congrArg (Option.map Edge.kind) found
    rw [edge?_applyAll, before, Edge.kind_foldl_settle fun e =>
      sound.kind_of_mem_edgesBetween_linkAdditions] at kind
    split at kind
    · cases kind
    · exact (Option.some.inj kind).symm

end DependencyGraph

open DependencyGraph in
/-- **A wider scope removes and displaces nothing.** Whatever the files are, the graph that is built
in a wider scope has every node key of the narrower graph with the same variant and every pair of
ends. The files, components and utilities of both are the same, every other node is a placeholder,
and every other edge is an import. -/
theorem buildGraph_isWithin (sources : List SourceFile) (narrow wide : InternalScope)
    (within : narrow.IsWithin wide) :
    ∃ g h, buildGraph narrow sources = .ok g ∧ buildGraph wide sources = .ok h ∧
      g.IsWithin h := by
  have added : (withSources {} sources).Sound := (sound_empty.addSources sources).2
  refine ⟨_, _, (sound_empty.build narrow sources).1, (sound_empty.build wide sources).1, ?_⟩
  rw [applyAll_buildAdditions, applyAll_buildAdditions]
  exact added.isWithin_linked within

/-- A page and a button. The page imports the icons both by a package and by their path, and two of
its packages lead to keys that are taken, that of the button and that of its own component. -/
def packagedFiles : List SourceFile :=
  [ { path := "/app/page.tsx"
      imports :=
        [ { specifier := "react", line := 1 },
          { specifier := "@app/button", resolvedPath := some "/app/button.tsx", line := 2 },
          { specifier := "@app/theme", line := 3 },
          { specifier := "@app/icons", resolvedPath := some "/icons.ts", line := 4 },
          { specifier := "../icons", resolvedPath := some "/icons.ts", line := 5 },
          { specifier := "Page:/app/page.tsx", line := 6 } ]
      declarations := [.component { name := "Page", path := "/app/page.tsx" }] },
    { path := "/app/button.tsx" } ]

open DependencyGraph in
/-- With more packages the page has two more links. One leads to the button, and only the theme, to
which the other leads, is a new node. -/
theorem buildGraph_isWithin_packagedFiles :
    ∃ g h, buildGraph { root := "/app", packages := ["react"] } packagedFiles = .ok g ∧
      buildGraph { root := "/app", packages := ["Page:/app/page.tsx", "react"], scope := "@app/" }
        packagedFiles = .ok h ∧
      g.IsWithin h ∧
      g.keys = ["/app/page.tsx", "Page:/app/page.tsx", "/app/button.tsx", "react", "/icons.ts"] ∧
      h.keys = ["/app/page.tsx", "Page:/app/page.tsx", "/app/button.tsx", "react", "@app/theme",
        "/icons.ts"] ∧
      g.edges.map Edge.target = ["Page:/app/page.tsx", "react", "/icons.ts"] ∧
      h.edges.map Edge.target =
        ["Page:/app/page.tsx", "react", "/app/button.tsx", "@app/theme", "/icons.ts"] := by
  obtain ⟨g, h, first, second, within⟩ := buildGraph_isWithin packagedFiles
    { root := "/app", packages := ["react"] }
    { root := "/app", packages := ["Page:/app/page.tsx", "react"], scope := "@app/" }
    ⟨rfl, by decide, .inr rfl⟩
  have narrow : (buildGraph { root := "/app", packages := ["react"] } packagedFiles).toOption.map
      (fun g => (g.keys, g.edges.map Edge.target)) =
        some (["/app/page.tsx", "Page:/app/page.tsx", "/app/button.tsx", "react", "/icons.ts"],
          ["Page:/app/page.tsx", "react", "/icons.ts"]) := by
    decide +kernel
  have wide : (buildGraph
      { root := "/app", packages := ["Page:/app/page.tsx", "react"], scope := "@app/" }
      packagedFiles).toOption.map (fun g => (g.keys, g.edges.map Edge.target)) =
        some (["/app/page.tsx", "Page:/app/page.tsx", "/app/button.tsx", "react", "@app/theme",
            "/icons.ts"],
          ["Page:/app/page.tsx", "react", "/app/button.tsx", "@app/theme", "/icons.ts"]) := by
    decide +kernel
  rw [first] at narrow
  rw [second] at wide
  obtain ⟨keys, targets⟩ := Prod.mk.inj (Option.some.inj narrow)
  obtain ⟨moreKeys, moreTargets⟩ := Prod.mk.inj (Option.some.inj wide)
  exact ⟨g, h, first, second, within, keys, moreKeys, targets, moreTargets⟩

end SourceAtlas.Graph
