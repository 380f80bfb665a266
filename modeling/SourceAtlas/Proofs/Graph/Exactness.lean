/-
# Exactly which graph is built

For source files with paths of their own, whose declarations are components and utilities under
keys that are no path, the graph is determined by the files: `Depicts` says which keys there are,
what variant each of them holds, which edges there are, and of which kind they are. Only internal
imports occur in it. An external import leads to no key and to no edge.
-/

import SourceAtlas.Proofs.Graph.Content

namespace SourceAtlas.Graph

open DependencyGraph

/-- The graph of source files, told by the files alone. -/
structure Depicts (scope : InternalScope) (sources : List SourceFile) (g : DependencyGraph) :
    Prop where
  /-- No key and no pair of ends is stored twice. -/
  keys_nodup : g.keys.Nodup
  ends_nodup : (g.arcs.map Edge.ends).Nodup
  /-- There are the paths, the keys of the declarations, and the targets of internal imports. -/
  mem_keys_iff : ∀ key, key ∈ g.keys ↔
    ∃ s ∈ sources, s.path = key ∨ s.Declares key ∨ s.Links scope key
  /-- A path holds the file, and nothing else holds one. -/
  file : ∀ s ∈ sources, g.node? s.path = some s.fileNode
  kind_eq_file_iff : ∀ key n, g.node? key = some n →
    (n.kind = .file ↔ ∃ s ∈ sources, s.path = key)
  kind_eq_declaration_iff : ∀ key n, g.node? key = some n →
    (n.kind = .component ∨ n.kind = .utility ↔ ∃ s ∈ sources, s.Declares key)
  /-- Whatever is neither a path nor the key of a declaration holds a placeholder. -/
  kind_eq_module_iff : ∀ key n, g.node? key = some n →
    (n.kind = .module ↔ ¬ ∃ s ∈ sources, s.path = key ∨ s.Declares key)
  /-- A file leads to what it declares and to what it imports from within. -/
  hasEdge_iff : ∀ start target, g.hasEdge start target = true ↔
    ∃ s ∈ sources, s.path = start ∧ (s.Declares target ∨ s.Links scope target)
  /-- An edge is an import if one leads there, and a containment otherwise. -/
  kind_edge : ∀ s ∈ sources, ∀ target e, g.edge? s.path target = some e →
    (s.Links scope target → e.kind = .imports) ∧ (¬ s.Links scope target → e.kind = .contains)

namespace SourceFile

variable {scope : InternalScope} {source : SourceFile} {target : String}

theorem containmentTo?_isSome_iff :
    (source.containmentTo? target).isSome = true ↔ source.Declares target := by
  rw [containmentTo?]
  split <;> simp_all [Declares]

theorem edgeTo?_of_links (links : source.Links scope target) :
    ∃ r : ImportRecord, source.edgeTo? scope target = some (r.link source.path) := by
  cases last : (source.recordsTo scope target).getLast? with
  | none =>
      rw [List.getLast?_eq_none_iff, recordsTo_eq_nil_iff] at last
      exact absurd links last
  | some r => exact ⟨r, by rw [edgeTo?, last]⟩

theorem edgeTo?_of_not_links (unlinked : ¬ source.Links scope target) :
    source.edgeTo? scope target = source.containmentTo? target := by
  rw [edgeTo?, recordsTo_eq_nil_iff.mpr unlinked]
  rfl

theorem edgeTo?_isSome_iff :
    (source.edgeTo? scope target).isSome = true ↔
      source.Declares target ∨ source.Links scope target := by
  by_cases links : source.Links scope target
  · obtain ⟨r, drawn⟩ := edgeTo?_of_links links
    simp [drawn, links]
  · simp [edgeTo?_of_not_links links, containmentTo?_isSome_iff, links]

theorem kind_of_edgeTo? {e : Edge} (drawn : source.edgeTo? scope target = some e) :
    (source.Links scope target → e.kind = .imports) ∧
      (¬ source.Links scope target → e.kind = .contains) := by
  constructor
  · intro links
    obtain ⟨r, linked⟩ := edgeTo?_of_links links
    rw [linked] at drawn
    cases drawn
    rfl
  · intro unlinked
    rw [edgeTo?_of_not_links unlinked, containmentTo?, Option.ite_none_right_eq_some] at drawn
    obtain ⟨-, same⟩ := drawn
    cases same
    rfl

end SourceFile

namespace DependencyGraph

variable {scope : InternalScope} {sources : List SourceFile} {g : DependencyGraph}

theorem hasEdge_eq_isSome_edge? (g : DependencyGraph) (source target : String) :
    g.hasEdge source target = (g.edge? source target).isSome := by
  rw [hasEdge, edge?, List.isSome_find?]

theorem Shows.hasEdge_iff (shown : Shows scope sources g) (start target : String) :
    g.hasEdge start target = true ↔
      ∃ s ∈ sources, s.path = start ∧ (s.Declares target ∨ s.Links scope target) := by
  rw [hasEdge_eq_isSome_edge?]
  constructor
  · intro drawn
    by_cases somewhere : ∃ s ∈ sources, s.path = start
    · obtain ⟨s, given, rfl⟩ := somewhere
      rw [shown.edge?_path s given, SourceFile.edgeTo?_isSome_iff] at drawn
      exact ⟨s, given, rfl, drawn⟩
    · push Not at somewhere
      rw [shown.edge?_eq_none somewhere] at drawn
      cases drawn
  · rintro ⟨s, given, rfl, leads⟩
    rw [shown.edge?_path s given, SourceFile.edgeTo?_isSome_iff]
    exact leads

/-- A key that is no path holds a declaration exactly if a file declares one there. -/
theorem Shows.kind_elsewhere (shown : Shows scope sources g) (orderly : Orderly sources)
    {key : String} {n : Node} (found : g.node? key = some n)
    (elsewhere : ∀ s ∈ sources, s.path ≠ key) :
    ((∃ s ∈ sources, s.Declares key) ∧ (n.kind = .component ∨ n.kind = .utility)) ∨
      ((¬ ∃ s ∈ sources, s.Declares key) ∧ n.kind = .module) := by
  have holds := shown.holds key
  rw [found] at holds
  cases solid : n.isSolid with
  | true =>
      rw [Option.filter_some_pos solid] at holds
      left
      refine ⟨?_, orderly.kind_of_settledAt holds.symm elsewhere⟩
      by_contra undeclared
      push Not at undeclared
      have none := settledAt_eq_none_iff.mpr fun s given =>
        ⟨elsewhere s given, undeclared s given⟩
      rw [none] at holds
      cases holds
  | false =>
      obtain ⟨m, rfl⟩ := Node.isSolid_eq_false_iff.mp solid
      right
      refine ⟨?_, rfl⟩
      rintro ⟨s, given, declares⟩
      exact (settledAt_eq_none_iff.mp holds.symm s given).2 declares

/-- Of the three things that a key can be, it is exactly one, and the node under it is of the
variant that belongs to it. -/
theorem Shows.kind_cases (shown : Shows scope sources g) (orderly : Orderly sources)
    (apart : ∀ s ∈ sources, ∀ t ∈ sources, ¬ s.Declares t.path) {key : String} {n : Node}
    (found : g.node? key = some n) :
    ((∃ s ∈ sources, s.path = key) ∧ (¬ ∃ s ∈ sources, s.Declares key) ∧ n.kind = .file) ∨
      ((¬ ∃ s ∈ sources, s.path = key) ∧ (∃ s ∈ sources, s.Declares key) ∧
        (n.kind = .component ∨ n.kind = .utility)) ∨
      ((¬ ∃ s ∈ sources, s.path = key) ∧ (¬ ∃ s ∈ sources, s.Declares key) ∧
        n.kind = .module) := by
  by_cases somewhere : ∃ s ∈ sources, s.path = key
  · left
    obtain ⟨s, given, rfl⟩ := somewhere
    rw [shown.holds.node?_path orderly given] at found
    cases found
    refine ⟨⟨s, given, rfl⟩, ?_, rfl⟩
    rintro ⟨t, other, declares⟩
    exact apart t other s given declares
  · right
    have elsewhere : ∀ s ∈ sources, s.path ≠ key := fun s given here => somewhere ⟨s, given, here⟩
    exact (shown.kind_elsewhere orderly found elsewhere).imp (.intro somewhere) (.intro somewhere)

theorem Shows.depicts (shown : Shows scope sources g) (orderly : Orderly sources)
    (apart : ∀ s ∈ sources, ∀ t ∈ sources, ¬ s.Declares t.path) : Depicts scope sources g where
  keys_nodup := shown.sound.keys_nodup
  ends_nodup := shown.sound.ends_nodup
  mem_keys_iff := shown.mem_keys_iff
  file s given := shown.holds.node?_path orderly given
  kind_eq_file_iff key n found := by
    rcases shown.kind_cases orderly apart found with
      ⟨path, -, kind⟩ | ⟨noPath, -, kind | kind⟩ | ⟨noPath, -, kind⟩ <;> simp_all
  kind_eq_declaration_iff key n found := by
    rcases shown.kind_cases orderly apart found with
      ⟨-, undeclared, kind⟩ | ⟨-, declared, kind | kind⟩ | ⟨-, undeclared, kind⟩ <;> simp_all
  kind_eq_module_iff key n found := by
    rcases shown.kind_cases orderly apart found with
      ⟨path, -, kind⟩ | ⟨-, declared, kind⟩ | ⟨noPath, undeclared, kind⟩
    · obtain ⟨s, given, here⟩ := path
      simp only [kind, reduceCtorEq, false_iff, not_not]
      exact ⟨s, given, .inl here⟩
    · obtain ⟨s, given, declares⟩ := declared
      have solid : n.kind ≠ .module := by rcases kind with kind | kind <;> simp [kind]
      simp only [solid, false_iff, not_not]
      exact ⟨s, given, .inr declares⟩
    · simp only [kind, true_iff]
      rintro ⟨s, given, here | declares⟩
      · exact noPath ⟨s, given, here⟩
      · exact undeclared ⟨s, given, declares⟩
  hasEdge_iff := shown.hasEdge_iff
  kind_edge s given target e drawn :=
    SourceFile.kind_of_edgeTo? ((shown.edge?_path s given target).symm.trans drawn)

end DependencyGraph

/-- **The graph is exactly the one that its files depict.** The files have paths of their own, and
they declare components and utilities under keys that are no path; their imports are arbitrary. -/
theorem buildGraph_depicts (scope : InternalScope) (sources : List SourceFile)
    (distinct : (sources.map SourceFile.path).Nodup)
    (plain : ∀ s ∈ sources, ∀ d ∈ s.declarations, d.kind = .component ∨ d.kind = .utility)
    (apart : ∀ s ∈ sources, ∀ d ∈ s.declarations, ∀ t ∈ sources, d.uniqueId ≠ t.path) :
    ∃ g, buildGraph scope sources = .ok g ∧ Depicts scope sources g := by
  have undeclared : ∀ s ∈ sources, ∀ t ∈ sources, ¬ s.Declares t.path := by
    rintro s given t other ⟨d, declared, same⟩
    exact apart s given d declared t other same
  have orderly : Orderly sources :=
    ⟨distinct, plain, fun s given t other _ => undeclared s given t other⟩
  have shown : Shows scope ([] ++ sources) _ := (shows_empty scope).build orderly
  exact ⟨_, (sound_empty.build scope sources).1, shown.depicts orderly undeclared⟩

/-- Two files that import each other. One of them also imports a package from outside and a file
that is not there, and the other declares one name twice. -/
def mutualFiles : List SourceFile :=
  [ { path := "/app/page.tsx"
      imports :=
        [ { specifier := "react", line := 1 },
          { specifier := "./button", resolvedPath := some "/app/button.tsx", line := 2 },
          { specifier := "./gone", line := 3 } ]
      declarations := [.component { name := "Page", path := "/app/page.tsx" }] },
    { path := "/app/button.tsx"
      imports := [{ specifier := "./page", resolvedPath := some "/app/page.tsx", line := 1 }]
      declarations :=
        [ .component { name := "Button", path := "/app/button.tsx" },
          .utility { name := "Button", path := "/app/button.tsx" } ] } ]

theorem buildGraph_depicts_mutualFiles :
    ∃ g, buildGraph { root := "/app" } mutualFiles = .ok g ∧
      Depicts { root := "/app" } mutualFiles g :=
  buildGraph_depicts _ _ (by decide) (by decide) (by decide)

end SourceAtlas.Graph
