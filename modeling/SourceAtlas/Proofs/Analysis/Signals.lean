/-
# What is measured of the files of a graph

The declarations of a file are counted as its neighbours, in a graph in which files are also next to
the files that they import, to those that import them, and to placeholders. Edges only leave files,
so whatever leads to a file is a file and is not counted; and as long as no import leads to the key
of a declaration, what a file leads to is counted exactly if the file declares it.
-/

import Mathlib.Data.Finset.Card
import SourceAtlas.Analysis.Cohesion
import SourceAtlas.Proofs.Graph.Confluence
import SourceAtlas.Proofs.Graph.Rebuilding
import SourceAtlas.Proofs.Graph.Requests

namespace SourceAtlas.Analysis

open SourceAtlas.Graph DependencyGraph

section Neighbours

variable {g : DependencyGraph} {key : String}

theorem adjacent_eq (stored : key ∈ g.keys) :
    adjacent g key =
      g.targets key ++ (g.origins key).filter fun k => !(g.targets key).contains k := by
  have there : g.hasNode key = true := List.contains_iff_mem.mpr stored
  rw [adjacent, neighbors, successors, predecessors, requireNode, if_pos there]
  rfl

theorem mem_adjacent_iff (stored : key ∈ g.keys) {k : String} :
    k ∈ adjacent g key ↔ g.hasEdge key k = true ∨ g.hasEdge k key = true := by
  rw [adjacent_eq stored, List.mem_append, List.mem_filter, Bool.not_eq_true',
    ← Bool.not_eq_true, List.contains_iff_mem, mem_targets_iff, mem_origins_iff]
  tauto

theorem nodup_targets (distinct : (g.arcs.map Edge.ends).Nodup) : (g.targets key).Nodup := by
  rw [targets_eq]
  refine (distinct.filter _).map_on fun first listed second alsoListed same => ?_
  have start := (List.mem_filter.mp listed).2
  have alsoStart := (List.mem_filter.mp alsoListed).2
  rw [decide_eq_true_eq] at start alsoStart
  exact Prod.ext (start.trans alsoStart.symm) same

theorem nodup_origins (distinct : (g.arcs.map Edge.ends).Nodup) : (g.origins key).Nodup := by
  rw [origins_eq]
  refine (distinct.filter _).map_on fun first listed second alsoListed same => ?_
  have finish := (List.mem_filter.mp listed).2
  have alsoFinish := (List.mem_filter.mp alsoListed).2
  rw [decide_eq_true_eq] at finish alsoFinish
  exact Prod.ext same (finish.trans alsoFinish.symm)

theorem nodup_adjacent (distinct : (g.arcs.map Edge.ends).Nodup) (stored : key ∈ g.keys) :
    (adjacent g key).Nodup := by
  rw [adjacent_eq stored, List.nodup_append]
  refine ⟨nodup_targets distinct, (nodup_origins distinct).filter _, ?_⟩
  rintro k after _ before rfl
  have new := (List.mem_filter.mp before).2
  rw [Bool.not_eq_true', ← Bool.not_eq_true, List.contains_iff_mem] at new
  exact new after

/-- What is counted next to a node is known by its members, since no neighbour comes twice. -/
theorem declarationCount_eq_card (distinct : (g.arcs.map Edge.ends).Nodup) (stored : key ∈ g.keys)
    {counted : Finset String}
    (mem_counted_iff : ∀ k, k ∈ counted ↔
      k ∈ adjacent g key ∧ (g.node? k).any isDeclaration = true) :
    declarationCount g key = counted.card := by
  have nodup := (nodup_adjacent distinct stored).filter fun k => (g.node? k).any isDeclaration
  rw [declarationCount, List.countP_eq_length_filter, ← List.toFinset_card_of_nodup nodup]
  congr 1
  ext k
  rw [List.mem_toFinset, List.mem_filter, mem_counted_iff]

end Neighbours

/-- What is measured of a file whose node is stored under a key. -/
def nodeSignals (g : DependencyGraph) (key : String) (n : FileNode) : Signals where
  lines := n.lineCount
  declarations := declarationCount g key
  dependencies := n.dependencies.length

theorem fileSignals?_eq_some_iff {g : DependencyGraph} {entry : String × Node}
    {measured : String × Signals} :
    fileSignals? g entry = some measured ↔
      ∃ n, entry.2 = .file n ∧ measured = (entry.1, nodeSignals g entry.1 n) := by
  obtain ⟨key, node⟩ := entry
  cases node <;> simp [fileSignals?, nodeSignals, eq_comm]

theorem mem_signals_iff {g : DependencyGraph} (distinct : g.keys.Nodup) {key : String}
    {measured : Signals} :
    (key, measured) ∈ signals g ↔
      ∃ n, g.node? key = some (.file n) ∧ measured = nodeSignals g key n := by
  rw [signals, List.mem_filterMap]
  simp only [fileSignals?_eq_some_iff, Prod.mk.injEq]
  constructor
  · rintro ⟨⟨k, node⟩, stored, n, rfl, rfl, same⟩
    exact ⟨n, node?_of_mem_entries distinct stored, same⟩
  · rintro ⟨n, found, same⟩
    exact ⟨_, mem_entries_of_node? found, n, rfl, rfl, same⟩

/-- There are signals for each file, in the order of the nodes. -/
theorem signals_keys (g : DependencyGraph) :
    (signals g).map Prod.fst = g.keysOfKind .file := by
  rw [signals, keysOfKind]
  induction g.entries with
  | nil => rfl
  | cons entry rest ih =>
      obtain ⟨key, node⟩ := entry
      cases node with
      | file n => exact congrArg (List.cons key) ih
      | component n => exact ih
      | utility n => exact ih
      | module n => exact ih

theorem nodup_signals_keys {g : DependencyGraph} (distinct : g.keys.Nodup) :
    ((signals g).map Prod.fst).Nodup := by
  rw [signals_keys, keysOfKind]
  exact distinct.sublist (List.filter_sublist.map Prod.fst)

/-- The signals of a graph whose files are those under some keys, in the order of these keys. -/
theorem signals_eq_filterMap {g : DependencyGraph} (distinct : g.keys.Nodup)
    {isPath : String → Bool}
    (files : ∀ key n, g.node? key = some n → n.kind = .file → isPath key = true) :
    signals g = (g.keys.filter isPath).filterMap fun key =>
      (g.node? key).bind fun n => fileSignals? g (key, n) := by
  rw [signals, entries_eq_filterMap_keys distinct, List.filterMap_filterMap, List.filterMap_filter]
  refine List.filterMap_congr fun key _ => ?_
  rw [Option.bind_map]
  split
  · rfl
  · rename_i elsewhere
    cases found : g.node? key with
    | none => rfl
    | some n =>
        cases n with
        | file n => exact absurd (files key _ found rfl) elsewhere
        | component n => rfl
        | utility n => rfl
        | module n => rfl

/-- A source file comes after everything that was there, as far as its declarations do not
matter. -/
theorem filter_keys_addSource {matters : String → Bool} {g : DependencyGraph} {s : SourceFile}
    (counts : matters s.path = true) (new : s.path ∉ g.keys)
    (idle : ∀ d ∈ s.declarations, matters d.uniqueId = false) :
    (g.applyAll s.additions).keys.filter matters = g.keys.filter matters ++ [s.path] := by
  rw [SourceFile.additions, applyAll_cons, filter_keys_applyAll_of_known]
  · rw [DependencyGraph.apply, keys_addNode, if_neg new, List.filter_append,
      List.filter_singleton, counts, cond_true]
  · intro key n made here
    obtain ⟨d, declared, among⟩ := List.mem_flatMap.mp made
    rw [Node.declarationAdditions, List.mem_cons, List.mem_singleton] at among
    rcases among with same | same
    · obtain ⟨rfl, -⟩ := Addition.node.inj same
      rw [idle d declared] at here
      cases here
    · cases same

/-- The paths of source files come in the order of the files. -/
theorem filter_keys_withSources {matters : String → Bool} {sources : List SourceFile}
    {g : DependencyGraph} (distinct : (sources.map SourceFile.path).Nodup)
    (counts : ∀ s ∈ sources, matters s.path = true) (new : ∀ s ∈ sources, s.path ∉ g.keys)
    (idle : ∀ s ∈ sources, ∀ d ∈ s.declarations, matters d.uniqueId = false) :
    (g.withSources sources).keys.filter matters =
      g.keys.filter matters ++ sources.map SourceFile.path := by
  induction sources generalizing g with
  | nil => simp [withSources]
  | cons s rest ih =>
      rw [List.map_cons, List.nodup_cons] at distinct
      obtain ⟨fresh, distinct⟩ := distinct
      rw [List.forall_mem_cons] at counts new idle
      have first := filter_keys_addSource counts.1 new.1 idle.1
      have later : ∀ t ∈ rest, t.path ∉ (g.applyAll s.additions).keys := by
        intro t given known
        have among := List.mem_filter.mpr ⟨known, counts.2 t given⟩
        rw [first, List.mem_append, List.mem_singleton] at among
        rcases among with before | same
        · exact new.2 t given (List.mem_filter.mp before).1
        · exact fresh (List.mem_map.mpr ⟨t, given, same⟩)
      have split : g.withSources (s :: rest) = (g.applyAll s.additions).withSources rest := by
        rw [withSources, List.flatMap_cons, applyAll_append, withSources]
      rw [split, ih distinct counts.2 later idle.2, first, List.append_assoc,
        List.singleton_append, List.map_cons]

/-- In the graph of source files their paths come in the order of the files. -/
theorem filter_keys_build (scope : InternalScope) {matters : String → Bool}
    {sources : List SourceFile} (distinct : (sources.map SourceFile.path).Nodup)
    (mem_iff : ∀ key, matters key = true ↔ ∃ s ∈ sources, s.path = key)
    (apart : ∀ s ∈ sources, ∀ d ∈ s.declarations, ∀ t ∈ sources, d.uniqueId ≠ t.path) :
    (DependencyGraph.applyAll {} (buildAdditions scope {} sources)).keys.filter matters =
      sources.map SourceFile.path := by
  have paths : (withSources {} sources).keys.filter matters = sources.map SourceFile.path := by
    refine (filter_keys_withSources distinct ?_ ?_ ?_).trans (List.nil_append _)
    · exact fun s given => (mem_iff s.path).mpr ⟨s, given, rfl⟩
    · exact fun s given => List.not_mem_nil
    · intro s given d declared
      rw [← Bool.not_eq_true, mem_iff]
      rintro ⟨t, other, same⟩
      exact apart s given d declared t other same.symm
  rw [applyAll_buildAdditions, filter_keys_applyAll_of_known, paths]
  intro key n _ here
  obtain ⟨s, given, rfl⟩ := (mem_iff key).mp here
  have among : s.path ∈ (withSources {} sources).keys.filter matters := by
    rw [paths]
    exact List.mem_map.mpr ⟨s, given, rfl⟩
  exact (List.mem_filter.mp among).1

/-- What is measured of a source file: its lines, the keys that it declares, each once, and its
dependencies. -/
def sourceSignals (s : SourceFile) : Signals where
  lines := s.lineCount
  declarations := (s.declarations.map Node.uniqueId).toFinset.card
  dependencies := s.dependencies.length

theorem isDeclaration_eq_true_iff {n : Node} :
    isDeclaration n = true ↔ n.kind = .component ∨ n.kind = .utility := by
  rw [isDeclaration, Bool.or_eq_true, beq_iff_eq, beq_iff_eq]

section Depicted

variable {scope : InternalScope} {sources : List SourceFile} {g : DependencyGraph}
  (depicts : Depicts scope sources g)
include depicts

theorem any_isDeclaration_iff (key : String) :
    (g.node? key).any isDeclaration = true ↔ ∃ s ∈ sources, s.Declares key := by
  cases found : g.node? key with
  | none =>
      have absent := mt (depicts.mem_keys_iff key).mpr (node?_eq_none_iff.mp found)
      constructor
      · intro absurd
        cases absurd
      · rintro ⟨s, given, declares⟩
        exact (absent ⟨s, given, .inr (.inl declares)⟩).elim
  | some n =>
      rw [Option.any_some, isDeclaration_eq_true_iff]
      exact depicts.kind_eq_declaration_iff key n found

/-- Next to a file, exactly what it declares is counted. -/
theorem declarationCount_path (distinct : (sources.map SourceFile.path).Nodup)
    (undeclared : ∀ s ∈ sources, ∀ t ∈ sources, ¬ s.Declares t.path)
    (unlinked : ∀ s ∈ sources, ∀ t ∈ sources, ∀ key, s.Declares key → ¬ t.Links scope key)
    {s : SourceFile} (given : s ∈ sources) :
    declarationCount g s.path = (s.declarations.map Node.uniqueId).toFinset.card := by
  have stored : s.path ∈ g.keys := (depicts.mem_keys_iff _).mpr ⟨s, given, .inl rfl⟩
  apply declarationCount_eq_card depicts.ends_nodup stored
  intro key
  have declares_iff : key ∈ (s.declarations.map Node.uniqueId).toFinset ↔ s.Declares key := by
    rw [List.mem_toFinset, List.mem_map, SourceFile.Declares]
  rw [declares_iff, mem_adjacent_iff stored, any_isDeclaration_iff depicts, depicts.hasEdge_iff,
    depicts.hasEdge_iff]
  constructor
  · intro declares
    exact ⟨.inl ⟨s, given, rfl, .inl declares⟩, s, given, declares⟩
  · rintro ⟨⟨t, other, same, leads⟩ | ⟨t, other, rfl, -⟩, owner, among, declared⟩
    · cases List.inj_on_of_nodup_map distinct other given same
      rcases leads with declares | links
      · exact declares
      · exact (unlinked owner among s given key declared links).elim
    · exact (undeclared owner among t other declared).elim

end Depicted

/-- **The signals of a graph are those of its files.** The files have paths of their own, and they
declare components and utilities under keys that are no path and that no internal import leads to.
Then each file is measured once, in the order of the files, and nothing else is: by its lines, by
the keys that it declares, and by its dependencies, whatever imports it and whatever it imports. -/
theorem signals_buildGraph (scope : InternalScope) (sources : List SourceFile)
    (distinct : (sources.map SourceFile.path).Nodup)
    (plain : ∀ s ∈ sources, ∀ d ∈ s.declarations, d.kind = .component ∨ d.kind = .utility)
    (apart : ∀ s ∈ sources, ∀ d ∈ s.declarations, ∀ t ∈ sources, d.uniqueId ≠ t.path)
    (unlinked : ∀ s ∈ sources, ∀ d ∈ s.declarations, ∀ t ∈ sources, ∀ r ∈ t.imports,
      scope.isInternal r.specifier = true → r.targetKey ≠ d.uniqueId) :
    ∃ g, buildGraph scope sources = .ok g ∧
      signals g = sources.map fun s => (s.path, sourceSignals s) := by
  have undeclared : ∀ s ∈ sources, ∀ t ∈ sources, ¬ s.Declares t.path := by
    rintro s given t other ⟨d, declared, same⟩
    exact apart s given d declared t other same
  have notLinked : ∀ s ∈ sources, ∀ t ∈ sources, ∀ key, s.Declares key → ¬ t.Links scope key := by
    rintro s given t other key ⟨d, declared, rfl⟩ ⟨r, imported, internal, leads⟩
    exact unlinked s given d declared t other r imported internal leads
  have orderly : Orderly sources :=
    ⟨distinct, plain, fun s given t other _ => undeclared s given t other⟩
  have shown : Shows scope ([] ++ sources) _ := (shows_empty scope).build orderly
  have depicts := shown.depicts orderly undeclared
  refine ⟨_, (sound_empty.build scope sources).1, ?_⟩
  have isPath_iff (key : String) : (sources.any fun s => s.path = key) = true ↔
      ∃ s ∈ sources, s.path = key := by simp
  have files := signals_eq_filterMap depicts.keys_nodup fun key n found file =>
    (isPath_iff key).mpr ((depicts.kind_eq_file_iff key n found).mp file)
  rw [files, filter_keys_build scope distinct isPath_iff apart, List.filterMap_map,
    ← List.filterMap_eq_map]
  refine List.filterMap_congr fun s given => ?_
  rw [Function.comp_apply, depicts.file s given]
  have counted := declarationCount_path depicts distinct undeclared notLinked given
  simp [fileSignals?, SourceFile.fileNode, sourceSignals, counted]

/-- The two files that import each other, with lines and with what they depend on. -/
def measuredFiles : List SourceFile :=
  mutualFiles.map fun s =>
    { s with
      lineCount := 12
      dependencies := ({ root := "/app" } : InternalScope).dependencies s.imports }

/-- One file declares a name twice, and each of them is next to the other, but both count one
declaration. -/
theorem signals_buildGraph_measuredFiles :
    ∃ g, buildGraph { root := "/app" } measuredFiles = .ok g ∧
      signals g =
        [ ("/app/page.tsx", { lines := 12, declarations := 1, dependencies := 2 }),
          ("/app/button.tsx", { lines := 12, declarations := 1, dependencies := 1 }) ] := by
  obtain ⟨g, built, measured⟩ := signals_buildGraph { root := "/app" } measuredFiles
    (by decide +kernel) (by decide +kernel) (by decide +kernel) (by decide +kernel)
  refine ⟨g, built, measured.trans ?_⟩
  decide +kernel

end SourceAtlas.Analysis
