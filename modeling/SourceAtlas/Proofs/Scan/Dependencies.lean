/-
# The dependencies of scanned files

What counts as internal is decided twice for every import: when a file is read, for the list of its
dependencies, and when the graph is put together, for its links. Both times it is decided by the
scanned root and the options, so the list of a file and its links agree, whatever else happens to
the node of the file in between.
-/

import SourceAtlas.Proofs.Graph.Tracing
import SourceAtlas.Proofs.Scan.Linking

namespace SourceAtlas

open SourceAtlas.Graph

namespace Syntax

variable {α : Type}

/-- What a file declares is a component or a utility. -/
theorem kind_of_mem_declarations {path : String} {root : Tree α} {d : Node}
    (listed : d ∈ declarations path root) : d.kind = .component ∨ d.kind = .utility := by
  obtain ⟨t, -, classified⟩ := List.mem_filterMap.mp listed
  obtain ⟨candidate, -, rfl⟩ := Option.map_eq_some_iff.mp classified
  dsimp only
  split
  · exact .inl rfl
  · exact .inr rfl

end Syntax

namespace Scan

open Settings

variable {parser : Parser} {disk : Disk} {config : CompilerConfig} {root : String}
  {options : Options}

theorem dependencies_readSource (parser : Parser) (disk : Disk) (extensions : List String)
    (scope : InternalScope) (path : String) :
    (readSource parser disk extensions scope path).dependencies =
      scope.dependencies (readSource parser disk extensions scope path).imports := by
  rw [readSource]
  cases disk.readText path with
  | error fault => rfl
  | ok text =>
      dsimp only
      rw [sourceOfText]

theorem declarePlain_usable : DeclarePlain (usable (examine parser disk config root options)) := by
  intro s given d declared
  rw [(of_mem_usable given).2] at declared
  rcases readSource_cases parser disk options.extensions (scopeOf root options) s.path with
    ⟨-, none⟩ | ⟨text, tree, -, -, found⟩
  · rw [none] at declared
    cases declared
  · rw [found] at declared
    exact Syntax.kind_of_mem_declarations declared

theorem dependenciesAreLinks_of_repositoryGraph {g : DependencyGraph}
    (made : repositoryGraph parser disk config root options = .ok g) :
    DependencyGraph.DependenciesAreLinks (scopeOf root options)
      (usable (examine parser disk config root options)) g := by
  apply DependencyGraph.dependenciesAreLinks_of_buildGraph _ declarePlain_usable made
  intro s given
  rw [(of_mem_usable given).2]
  exact dependencies_readSource parser disk options.extensions (scopeOf root options) s.path

open DependencyGraph in
/-- **The dependencies of a file are its links.** The loop that notes what it draws leaves the graph
that linking leaves and notes as many records as are counted. Whatever scans came before, a scan of
a directory gives a graph in which the dependencies of every file are, in order and with
repetitions, the specifiers of the records for which linking drew an edge; their targets are the
targets of its imports, and their numbers are what is counted for each file and in all. -/
theorem dependencies_are_links_afterCalls (parser : Parser) (disk : Disk)
    (rooted : Path.isAbsolute disk.workingDirectory = true) (config : CompilerConfig)
    (own : Options) (calls : List Call) (root : String) (options : Option Options)
    (there : disk.isDirectory (disk.absolutePath root) = true) :
    (∀ scope g key,
      linkFile scope g key = (linkTraced scope g key).map Prod.fst ∧
        linkCount scope g key = (linkTraced scope g key).map fun linked => linked.2.length) ∧
      let new : Scanner := { parser, config, options := own }
      ∃ g, ((new.afterCalls disk calls).scan disk root options).result = .ok g ∧
        ∃ o ∈ usedOptions own (calls ++ [.scan root options]),
          o.digest = (options.getD own).digest ∧
            repositoryGraph parser disk config (disk.absolutePath root) o = .ok g ∧
            DependenciesAreLinks (scopeOf (disk.absolutePath root) o)
              (usable (examine parser disk config (disk.absolutePath root) o)) g := by
  constructor
  · intro scope g key
    exact ⟨linkFile_eq_map_linkTraced scope g key, linkCount_eq_map_linkTraced scope g key⟩
  · obtain ⟨g, result, o, used, digest, made⟩ :=
      exists_repositoryGraph_afterCalls parser rooted config own calls options there
    exact ⟨g, result, o, used, digest, made, dependenciesAreLinks_of_repositoryGraph made⟩

open DependencyGraph in
/-- The page is stored with its import, and it depends on what it imports. -/
theorem exists_node?_page {g : DependencyGraph}
    (made : repositoryGraph pageParser pageDisk plainConfig "/app" {} = .ok g) :
    ∃ n, g.node? "/app/page.ts" = some (.file n) ∧ n.imports = [pageRecord] ∧
      n.dependencies = ["./lib/../util"] := by
  have stored := (knownByPath_usable namesWell_pageParser isStandard_pageDisk).node?_build
    (scopeOf "/app" {}) mem_usable_pageDisk.1
  cases (sound_empty.build (scopeOf "/app" {}) _).1.symm.trans made
  rw [path_readSource] at stored
  refine ⟨_, stored, imports_page _, ?_⟩
  dsimp only
  rw [dependencies_readSource, imports_page]
  decide +kernel

open DependencyGraph in
theorem dependencies_are_links_afterCalls_pageDisk :
    Path.isAbsolute pageDisk.workingDirectory = true ∧
      pageDisk.isDirectory (pageDisk.absolutePath "/app") = true ∧
      ∃ g, (({ parser := pageParser, config := plainConfig, options := {} } : Scanner).scan
          pageDisk "/app" none).result = .ok g ∧
        DependenciesAreLinks (scopeOf "/app" {})
          (usable (examine pageParser pageDisk plainConfig "/app" {})) g ∧
        ∃ n, g.node? "/app/page.ts" = some (.file n) ∧ n.imports = [pageRecord] ∧
          n.dependencies = ["./lib/../util"] ∧ g.IsLinkedBy "/app/page.ts" n [pageRecord] ∧
          ∀ target, target ∈ g.importTargets "/app/page.ts" ↔ target = "/app/util/index.ts" := by
  have rooted : Path.isAbsolute pageDisk.workingDirectory = true := by decide +kernel
  have there : pageDisk.isDirectory (pageDisk.absolutePath "/app") = true := by decide +kernel
  obtain ⟨-, g, result, o, used, -, made, links⟩ :=
    dependencies_are_links_afterCalls pageParser pageDisk rooted plainConfig {} [] "/app" none
      there
  cases List.mem_singleton.mp used
  rw [absolutePath_pageDisk] at made links
  obtain ⟨n, stored, imports, dependencies⟩ := exists_node?_page made
  obtain ⟨added, notes, -, -, -, -, -, each⟩ := links.drawn
  obtain ⟨records, -, linked, -⟩ := each _ _ stored
  have all : records = [pageRecord] := by
    have count := congrArg List.length linked.dependencies
    rw [dependencies, List.length_map] at count
    exact (imports ▸ linked.records).eq_of_length count.symm
  subst all
  refine
    ⟨rooted, there, g, result, links, n, stored, imports, dependencies, linked, fun target => ?_⟩
  rw [linked.targets, List.map_singleton, List.mem_singleton]
  rfl

end Scan

end SourceAtlas
