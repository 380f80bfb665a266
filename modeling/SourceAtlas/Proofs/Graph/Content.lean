/-
# What the graph of source files holds

Source files are orderly if no two have the same path, they declare components and utilities only,
and no declaration has the key of another file. For orderly files this module says what a graph
holds after any number of builds that brought the files in: `Shows` describes every key and every
pair of ends by the files alone. An empty graph shows no files, and a build that brings in more
files leads from a graph that shows the earlier ones to a graph that shows them all.

Two things are left open by `Shows`, because they depend on the order in which the files came: the
places of the nodes and edges, and the names of the placeholders.
-/

import SourceAtlas.Proofs.Graph.Contribution

namespace SourceAtlas.Graph

/-- Files declare components and utilities only. -/
def DeclarePlain (sources : List SourceFile) : Prop :=
  ∀ s ∈ sources, ∀ d ∈ s.declarations, d.kind = .component ∨ d.kind = .utility

/-- Source files that do not get into each other's way. -/
structure Orderly (sources : List SourceFile) : Prop where
  paths_nodup : (sources.map SourceFile.path).Nodup
  plain : DeclarePlain sources
  apart : ∀ s ∈ sources, ∀ t ∈ sources, s.path ≠ t.path → ¬ s.Declares t.path

/-- What the nodes that source files put under a key settle to. -/
def settledAt (sources : List SourceFile) (key : String) : Option Node :=
  (nodesAt key (sources.flatMap SourceFile.additions)).foldl Node.settle none

theorem mem_nodesAt_sources {sources : List SourceFile} {key : String} {n : Node} :
    n ∈ nodesAt key (sources.flatMap SourceFile.additions) ↔
      ∃ s ∈ sources, (s.path = key ∧ n = s.fileNode) ∨
        (n ∈ s.declarations ∧ n.uniqueId = key) := by
  rw [nodesAt_flatMap, List.mem_flatMap]
  simp only [SourceFile.nodesAt_additions, List.mem_append, List.mem_filter, decide_eq_true_eq,
    List.mem_ite_nil_right, List.mem_singleton]

theorem DeclarePlain.isSolid {sources : List SourceFile} (plain : DeclarePlain sources)
    {key : String} {n : Node} (put : n ∈ nodesAt key (sources.flatMap SourceFile.additions)) :
    n.isSolid = true := by
  obtain ⟨s, given, ⟨-, rfl⟩ | ⟨declared, -⟩⟩ := mem_nodesAt_sources.mp put
  · rfl
  · rcases plain s given n declared with kind | kind <;> simp [Node.isSolid, kind]

theorem settledAt_eq_none_iff {sources : List SourceFile} {key : String} :
    settledAt sources key = none ↔ ∀ s ∈ sources, s.path ≠ key ∧ ¬ s.Declares key := by
  rw [settledAt, DependencyGraph.foldl_settle_eq_none_iff, nodesAt_flatMap,
    List.flatMap_eq_nil_iff]
  simp only [SourceFile.nodesAt_additions_eq_nil_iff, true_and]

namespace Orderly

variable {sources : List SourceFile}

/-- The key of a file holds the file, even if it declares something under that key itself. -/
theorem settledAt_path (orderly : Orderly sources) {s : SourceFile} (given : s ∈ sources) :
    settledAt sources s.path = some s.fileNode := by
  have own : nodesAt s.path (sources.flatMap SourceFile.additions) =
      nodesAt s.path s.additions := by
    rw [nodesAt_flatMap]
    refine flatMap_eq_of_owner orderly.paths_nodup given fun t other away => ?_
    rw [SourceFile.nodesAt_additions, if_neg away, List.nil_append, List.filter_eq_nil_iff]
    intro d declared here
    exact orderly.apart t other s given away ⟨d, declared, of_decide_eq_true here⟩
  rw [settledAt, own, SourceFile.nodesAt_additions, if_pos rfl, List.singleton_append,
    List.foldl_cons]
  refine Node.foldl_settle_file fun d put => ?_
  rcases orderly.plain s given d (List.mem_filter.mp put).1 with kind | kind <;> simp [kind]

/-- A key that is no path holds a declaration, if anything. -/
theorem kind_of_settledAt (orderly : Orderly sources) {key : String} {n : Node}
    (settled : settledAt sources key = some n) (elsewhere : ∀ s ∈ sources, s.path ≠ key) :
    n.kind = .component ∨ n.kind = .utility := by
  rcases Node.exists_mem_kind_eq_of_foldl_settle settled with ⟨old, absurd, -⟩ | ⟨m, put, same⟩
  · cases absurd
  · obtain ⟨s, given, ⟨here, -⟩ | ⟨declared, -⟩⟩ := mem_nodesAt_sources.mp put
    · exact absurd here (elsewhere s given)
    · rw [← same]
      exact orderly.plain s given m declared

/-- A key that holds a file is the path of one. -/
theorem path_of_settledAt_file (orderly : Orderly sources) {key : String} {n : FileNode}
    (settled : settledAt sources key = some (.file n)) :
    ∃ s ∈ sources, s.path = key ∧ s.fileNode = .file n := by
  by_cases somewhere : ∃ s ∈ sources, s.path = key
  · obtain ⟨s, given, rfl⟩ := somewhere
    rw [orderly.settledAt_path given] at settled
    exact ⟨s, given, rfl, Option.some.inj settled⟩
  · push Not at somewhere
    rcases orderly.kind_of_settledAt settled somewhere with kind | kind <;> cases kind

theorem of_append_left {others : List SourceFile} (orderly : Orderly (sources ++ others)) :
    Orderly sources where
  paths_nodup := orderly.paths_nodup.sublist ((List.sublist_append_left _ _).map _)
  plain s given := orderly.plain s (List.mem_append_left _ given)
  apart s given t other := orderly.apart s (List.mem_append_left _ given) t
    (List.mem_append_left _ other)

theorem perm {others : List SourceFile} (orderly : Orderly sources) (same : others.Perm sources) :
    Orderly others where
  paths_nodup := (same.map SourceFile.path).nodup_iff.mpr orderly.paths_nodup
  plain s given := orderly.plain s (same.mem_iff.mp given)
  apart s given t other := orderly.apart s (same.mem_iff.mp given) t (same.mem_iff.mp other)

end Orderly

namespace DependencyGraph

/-- Apart from placeholders, a graph holds what the source files put under each key. -/
def Holds (sources : List SourceFile) (g : DependencyGraph) : Prop :=
  ∀ key, (g.node? key).filter Node.isSolid = settledAt sources key

theorem Holds.addSources {sources batch : List SourceFile} {g : DependencyGraph}
    (holds : Holds sources g) (orderly : Orderly (sources ++ batch)) :
    Holds (sources ++ batch) (g.applyAll (batch.flatMap SourceFile.additions)) := by
  intro key
  have solid : (nodesAt key (batch.flatMap SourceFile.additions)).filter Node.isSolid =
      nodesAt key (batch.flatMap SourceFile.additions) := by
    refine List.filter_eq_self.mpr fun n put => ?_
    have among : n ∈ nodesAt key ((sources ++ batch).flatMap SourceFile.additions) := by
      rw [List.flatMap_append, nodesAt_append]
      exact List.mem_append_right _ put
    exact orderly.plain.isSolid among
  rw [node?_applyAll, Node.filter_foldl_settle, holds key, solid, settledAt, settledAt,
    List.flatMap_append, nodesAt_append, List.foldl_append]

theorem Holds.addLinks {sources : List SourceFile} {g : DependencyGraph} (holds : Holds sources g)
    (scope : InternalScope) (h : DependencyGraph) :
    Holds sources (g.applyAll (h.linkAdditions scope)) := by
  intro key
  rw [filter_isSolid_node?_applyAll_linkAdditions, holds key]

section Holding

variable {sources : List SourceFile} {g : DependencyGraph}

theorem Holds.node?_path (holds : Holds sources g) (orderly : Orderly sources) {s : SourceFile}
    (given : s ∈ sources) : g.node? s.path = some s.fileNode := by
  have settled := holds s.path
  rw [orderly.settledAt_path given, Option.filter_eq_some_iff] at settled
  exact settled.1

theorem Holds.path_of_file (holds : Holds sources g) (orderly : Orderly sources) {key : String}
    {n : FileNode} (found : g.node? key = some (.file n)) :
    ∃ s ∈ sources, s.path = key ∧ s.fileNode = .file n := by
  refine orderly.path_of_settledAt_file ?_
  rw [← holds key, found]
  rfl

/-- The records for which links are drawn are the internal ones of the source files. -/
theorem Holds.mem_linkOrder_iff (holds : Holds sources g) (orderly : Orderly sources)
    (sound : g.Sound) {scope : InternalScope} {r : ImportRecord} :
    r ∈ g.linkOrder scope ↔ ∃ s ∈ sources, r ∈ scope.internalRecords s.imports := by
  rw [linkOrder, List.mem_flatMap]
  constructor
  · rintro ⟨⟨key, records⟩, listed, internal⟩
    obtain ⟨n, stored, rfl⟩ := mem_fileImports_iff.mp listed
    have found := node?_of_mem_entries sound.keys_nodup stored
    obtain ⟨s, given, -, same⟩ := holds.path_of_file orderly found
    cases same
    exact ⟨s, given, internal⟩
  · rintro ⟨s, given, internal⟩
    have stored := mem_entries_of_node? (holds.node?_path orderly given)
    exact ⟨(s.path, s.imports), mem_fileImports_iff.mpr ⟨_, stored, rfl⟩, internal⟩

end Holding

end DependencyGraph

namespace SourceFile

/-- The edge from a file to what it declares under a key. -/
def containmentTo? (source : SourceFile) (target : String) : Option Edge :=
  if source.declarations.any fun d => d.uniqueId = target then
    some { source := source.path, target, kind := .contains }
  else none

/-- The edge from a file to a key: the last import that leads there decides, and without one a
declaration under that key. -/
def edgeTo? (scope : InternalScope) (source : SourceFile) (target : String) : Option Edge :=
  match (source.recordsTo scope target).getLast? with
  | some r => some (r.link source.path)
  | none => source.containmentTo? target

theorem isDrawn_of_containmentTo? {source : SourceFile} {target : String} {e : Edge}
    (drawn : source.containmentTo? target = some e) :
    e.IsDrawn ∧ e.ends = (source.path, target) := by
  rw [containmentTo?, Option.ite_none_right_eq_some] at drawn
  obtain ⟨-, same⟩ := drawn
  cases same
  exact ⟨.inl rfl, rfl⟩

theorem ends_link_of_mem_recordsTo {scope : InternalScope} {source : SourceFile} {target : String}
    {r : ImportRecord} (leads : r ∈ source.recordsTo scope target) :
    (r.link source.path).ends = (source.path, target) := by
  rw [← (mem_recordsTo.mp leads).2.2]
  rfl

theorem isDrawn_of_edgeTo? {scope : InternalScope} {source : SourceFile} {target : String}
    {e : Edge} (drawn : source.edgeTo? scope target = some e) :
    e.IsDrawn ∧ e.ends = (source.path, target) := by
  rw [edgeTo?] at drawn
  split at drawn
  next r last =>
    cases drawn
    exact ⟨Edge.isDrawn_link _ r, ends_link_of_mem_recordsTo (List.mem_of_getLast? last)⟩
  next => exact isDrawn_of_containmentTo? drawn

/-- What a file declares under a key is one edge, however often it does. -/
theorem foldl_settle_containments (source : SourceFile) (target : String) :
    ((source.declarations.filter fun d => d.uniqueId = target).map
      (Node.containment source.path)).foldl Edge.settle none = source.containmentTo? target := by
  rw [containmentTo?]
  split
  next declared =>
    refine Edge.foldl_settle_containments rfl ?_ ?_
    · intro e put
      obtain ⟨d, here, rfl⟩ := List.mem_map.mp put
      rw [← of_decide_eq_true (List.mem_filter.mp here).2]
      rfl
    · obtain ⟨d, given, here⟩ := List.any_eq_true.mp declared
      have listed : d ∈ source.declarations.filter fun d => d.uniqueId = target :=
        List.mem_filter.mpr ⟨given, here⟩
      exact List.ne_nil_of_mem (List.mem_map.mpr ⟨d, listed, rfl⟩)
  next undeclared =>
    rw [List.any_eq_true] at undeclared
    have nothing : (source.declarations.filter fun d => d.uniqueId = target) = [] := by
      rw [List.filter_eq_nil_iff]
      exact fun d given here => undeclared ⟨d, given, here⟩
    rw [nothing]
    rfl

/-- Drawing the links of a file, once or again, leads to the same edge. -/
theorem foldl_settle_links {scope : InternalScope} {source : SourceFile} {target : String}
    {start : Option Edge}
    (before : start = source.edgeTo? scope target ∨ start = source.containmentTo? target) :
    ((source.recordsTo scope target).map (ImportRecord.link source.path)).foldl Edge.settle start =
      source.edgeTo? scope target := by
  have drawn : ∀ e, start = some e → e.IsDrawn ∧ e.ends = (source.path, target) := by
    rintro e rfl
    rcases before with linked | contained
    · exact isDrawn_of_edgeTo? linked.symm
    · exact isDrawn_of_containmentTo? contained.symm
  rcases List.eq_nil_or_concat (source.recordsTo scope target) with none | ⟨earlier, last, records⟩
  · have unlinked : source.edgeTo? scope target = source.containmentTo? target := by
      rw [edgeTo?, none]
      rfl
    rw [none]
    exact before.elim id fun contained => contained.trans unlinked.symm
  · rw [List.concat_eq_append] at records
    have leads {r : ImportRecord} (listed : r ∈ earlier ++ [last]) :
        (r.link source.path).ends = (source.path, target) :=
      ends_link_of_mem_recordsTo (records ▸ listed)
    have last_leads := leads (List.mem_append_right _ (List.mem_singleton_self last))
    rw [edgeTo?, records, List.map_append, List.map_singleton, List.getLast?_concat]
    refine Edge.foldl_settle_concat_link (last_leads ▸ drawn) ?_
    intro e put
    obtain ⟨r, listed, rfl⟩ := List.mem_map.mp put
    rw [last_leads]
    exact ⟨Edge.isDrawn_link _ r, leads (List.mem_append_left _ listed)⟩

end SourceFile

/-! ## Graphs that show source files -/

namespace DependencyGraph

/-- A graph that holds what source files say: their nodes, the placeholders that their imports ask
for, and their edges. -/
structure Shows (scope : InternalScope) (sources : List SourceFile) (g : DependencyGraph) :
    Prop where
  sound : g.Sound
  holds : Holds sources g
  mem_keys_iff : ∀ key, key ∈ g.keys ↔
    ∃ s ∈ sources, s.path = key ∨ s.Declares key ∨ s.Links scope key
  placeholder : ∀ key m, g.node? key = some (.module m) → m.internal = true ∧
    (m.broken = true ↔ ∀ s ∈ sources, ∀ r ∈ s.recordsTo scope key, r.isBroken = true)
  edge?_path : ∀ s ∈ sources, ∀ target, g.edge? s.path target = s.edgeTo? scope target
  arcs_from : ∀ e ∈ g.arcs, ∃ s ∈ sources, s.path = e.source

theorem shows_empty (scope : InternalScope) : Shows scope [] {} where
  sound := sound_empty
  holds _ := rfl
  mem_keys_iff key := by simp [keys]
  placeholder key m found := by simp [node?] at found
  edge?_path s given := by simp at given
  arcs_from e stored := by simp at stored

section Step

variable {scope : InternalScope} {sources batch : List SourceFile} {g : DependencyGraph}

/-- The graph once more files are there and before their links are drawn. -/
def withSources (g : DependencyGraph) (batch : List SourceFile) : DependencyGraph :=
  g.applyAll (batch.flatMap SourceFile.additions)

theorem applyAll_buildAdditions (scope : InternalScope) (g : DependencyGraph)
    (batch : List SourceFile) :
    g.applyAll (g.buildAdditions scope batch) =
      (g.withSources batch).applyAll ((g.withSources batch).linkAdditions scope) :=
  applyAll_append ..

theorem Shows.sound_withSources (shown : Shows scope sources g) (batch : List SourceFile) :
    (g.withSources batch).Sound :=
  (shown.sound.addSources batch).2

theorem Shows.holds_withSources (shown : Shows scope sources g)
    (orderly : Orderly (sources ++ batch)) : Holds (sources ++ batch) (g.withSources batch) :=
  shown.holds.addSources orderly

theorem exists_node_mem_additions_iff {key : String} :
    (∃ n, .node key n ∈ batch.flatMap SourceFile.additions) ↔
      ∃ s ∈ batch, s.path = key ∨ s.Declares key := by
  simp only [← mem_nodesAt, mem_nodesAt_sources]
  constructor
  · rintro ⟨n, s, given, ⟨here, -⟩ | ⟨declared, here⟩⟩
    · exact ⟨s, given, .inl here⟩
    · exact ⟨s, given, .inr ⟨n, declared, here⟩⟩
  · rintro ⟨s, given, here | ⟨d, declared, here⟩⟩
    · exact ⟨s.fileNode, s, given, .inl ⟨here, rfl⟩⟩
    · exact ⟨d, s, given, .inr ⟨declared, here⟩⟩

theorem Holds.exists_node_mem_linkAdditions_iff (holds : Holds sources g)
    (orderly : Orderly sources) (sound : g.Sound) (scope : InternalScope) (key : String) :
    (∃ n, .node key n ∈ g.linkAdditions scope) ↔ ∃ s ∈ sources, s.Links scope key := by
  simp only [← mem_nodesAt, nodesAt_linkAdditions, List.mem_map, List.mem_filter,
    holds.mem_linkOrder_iff orderly sound, decide_eq_true_eq, SourceFile.Links,
    InternalScope.internalRecords]
  constructor
  · rintro ⟨-, r, ⟨⟨s, given, imported, internal⟩, here⟩, -⟩
    exact ⟨s, given, r, imported, internal, here⟩
  · rintro ⟨s, given, r, imported, internal, here⟩
    exact ⟨_, r, ⟨⟨s, given, imported, internal⟩, here⟩, rfl⟩

theorem Shows.mem_keys_build (shown : Shows scope sources g) (orderly : Orderly (sources ++ batch))
    (key : String) :
    key ∈ (g.applyAll (g.buildAdditions scope batch)).keys ↔
      ∃ s ∈ sources ++ batch, s.path = key ∨ s.Declares key ∨ s.Links scope key := by
  have linked := (shown.holds_withSources orderly).exists_node_mem_linkAdditions_iff orderly
    (shown.sound_withSources batch) scope key
  rw [applyAll_buildAdditions, mem_keys_applyAll, linked, withSources, mem_keys_applyAll,
    exists_node_mem_additions_iff, shown.mem_keys_iff]
  simp only [List.mem_append]
  grind

/-- The records behind the placeholders that links put under a key. -/
theorem Holds.mem_linkOrder_filter_iff (holds : Holds sources g) (orderly : Orderly sources)
    (sound : g.Sound) (scope : InternalScope) (key : String) (r : ImportRecord) :
    r ∈ (g.linkOrder scope).filter (fun r => r.targetKey = key) ↔
      ∃ s ∈ sources, r ∈ s.recordsTo scope key := by
  rw [List.mem_filter, holds.mem_linkOrder_iff orderly sound]
  simp only [SourceFile.recordsTo, List.mem_filter]
  constructor
  · rintro ⟨⟨s, given, internal⟩, here⟩
    exact ⟨s, given, internal, here⟩
  · rintro ⟨s, given, internal, here⟩
    exact ⟨⟨s, given, internal⟩, here⟩

/-- Where a placeholder is, no file has brought in anything else. -/
theorem Holds.settledAt_eq_none (holds : Holds sources g) {key : String} {m : ModuleNode}
    (found : g.node? key = some (.module m)) : settledAt sources key = none := by
  rw [← holds key, found]
  rfl

theorem nodesAt_additions_eq_nil {key : String}
    (away : ∀ s ∈ batch, s.path ≠ key ∧ ¬ s.Declares key) :
    nodesAt key (batch.flatMap SourceFile.additions) = [] := by
  have settled := settledAt_eq_none_iff.mpr away
  rw [settledAt, foldl_settle_eq_none_iff] at settled
  exact settled.2

theorem Shows.placeholder_build (shown : Shows scope sources g)
    (orderly : Orderly (sources ++ batch)) {key : String} {m : ModuleNode}
    (found : (g.applyAll (g.buildAdditions scope batch)).node? key = some (.module m)) :
    m.internal = true ∧ (m.broken = true ↔
      ∀ s ∈ sources ++ batch, ∀ r ∈ s.recordsTo scope key, r.isBroken = true) := by
  rw [applyAll_buildAdditions] at found
  have holds := shown.holds_withSources orderly
  have away := settledAt_eq_none_iff.mp ((holds.addLinks scope _).settledAt_eq_none found)
  have unchanged : (g.withSources batch).node? key = g.node? key := by
    rw [withSources, node?_applyAll, nodesAt_additions_eq_nil, List.foldl_nil]
    exact fun s given => away s (List.mem_append_right _ given)
  have mem_records :=
    holds.mem_linkOrder_filter_iff orderly (shown.sound_withSources batch) scope key
  rw [node?_applyAll, unchanged, nodesAt_linkAdditions] at found
  generalize ((g.withSources batch).linkOrder scope).filter (fun r => r.targetKey = key) = records
    at found mem_records
  have all_broken : records.all ImportRecord.isBroken = true ↔
      ∀ s ∈ sources ++ batch, ∀ r ∈ s.recordsTo scope key, r.isBroken = true := by
    rw [List.all_eq_true]
    constructor
    · intro broken s given r leads
      exact broken r ((mem_records r).mpr ⟨s, given, leads⟩)
    · intro broken r recorded
      obtain ⟨s, given, leads⟩ := (mem_records r).mp recorded
      exact broken s given r leads
  cases before : g.node? key with
  | none =>
      rw [before] at found
      cases records with
      | nil => cases found
      | cons r rest =>
          rw [foldl_settle_placeholders] at found
          cases found
          exact ⟨rfl, all_broken⟩
  | some old =>
      have loose : old.isSolid = false := by
        have earlier := shown.holds key
        rw [before, settledAt_eq_none_iff.mpr fun s given => away s (List.mem_append_left _ given),
          Option.filter_eq_none_iff] at earlier
        simpa using earlier old rfl
      obtain ⟨m₀, rfl⟩ := Node.isSolid_eq_false_iff.mp loose
      obtain ⟨internal, broken⟩ := shown.placeholder key m₀ before
      rw [before, foldl_settle_placeholders_of_module] at found
      cases found
      refine ⟨by simp [internal], ?_⟩
      simp only [Bool.and_eq_true, all_broken, broken]
      refine ⟨fun both => both.2, fun all => ⟨fun s given => ?_, all⟩⟩
      exact all s (List.mem_append_left _ given)

/-- The containments that a batch draws from one of its files. -/
theorem edgesBetween_batch (distinct : (batch.map SourceFile.path).Nodup) {s : SourceFile}
    (given : s ∈ batch) (target : String) :
    edgesBetween s.path target (batch.flatMap SourceFile.additions) =
      (s.declarations.filter fun d => d.uniqueId = target).map (Node.containment s.path) := by
  rw [edgesBetween_flatMap, flatMap_eq_of_owner distinct given]
  · rw [SourceFile.edgesBetween_additions, if_pos rfl]
  · intro other _ away
    rw [SourceFile.edgesBetween_additions, if_neg away]

theorem edgesBetween_batch_eq_nil {start : String} (elsewhere : ∀ s ∈ batch, s.path ≠ start)
    (target : String) : edgesBetween start target (batch.flatMap SourceFile.additions) = [] := by
  rw [edgesBetween_flatMap, List.flatMap_eq_nil_iff]
  intro s given
  rw [SourceFile.edgesBetween_additions, if_neg (elsewhere s given)]

theorem Shows.edge?_eq_none (shown : Shows scope sources g) {start : String}
    (elsewhere : ∀ s ∈ sources, s.path ≠ start) (target : String) :
    g.edge? start target = none := by
  rw [edge?_eq_none_iff]
  intro drawn
  obtain ⟨e, stored, ends⟩ := List.mem_map.mp drawn
  obtain ⟨s, given, here⟩ := shown.arcs_from e stored
  cases ends
  exact elsewhere s given here

/-- Before its links are drawn, a new file leads to what it declares, and an earlier file leads
where it did. -/
theorem Shows.edge?_withSources (shown : Shows scope sources g)
    (orderly : Orderly (sources ++ batch)) {s : SourceFile} (given : s ∈ sources ++ batch)
    (target : String) :
    (g.withSources batch).edge? s.path target = s.edgeTo? scope target ∨
      (g.withSources batch).edge? s.path target = s.containmentTo? target := by
  have distinct := orderly.paths_nodup
  rw [List.map_append, List.nodup_append] at distinct
  obtain ⟨-, distinct, disjoint⟩ := distinct
  rw [withSources, edge?_applyAll]
  rcases List.mem_append.mp given with earlier | new
  · left
    have elsewhere : ∀ t ∈ batch, t.path ≠ s.path := fun t other same =>
      disjoint _ (List.mem_map.mpr ⟨s, earlier, rfl⟩) _ (List.mem_map.mpr ⟨t, other, rfl⟩) same.symm
    rw [edgesBetween_batch_eq_nil elsewhere]
    exact shown.edge?_path s earlier target
  · right
    have elsewhere : ∀ t ∈ sources, t.path ≠ s.path := fun t other =>
      disjoint _ (List.mem_map.mpr ⟨t, other, rfl⟩) _ (List.mem_map.mpr ⟨s, new, rfl⟩)
    rw [shown.edge?_eq_none elsewhere, edgesBetween_batch distinct new]
    exact s.foldl_settle_containments target

theorem Shows.edge?_path_build (shown : Shows scope sources g)
    (orderly : Orderly (sources ++ batch)) {s : SourceFile} (given : s ∈ sources ++ batch)
    (target : String) :
    (g.applyAll (g.buildAdditions scope batch)).edge? s.path target = s.edgeTo? scope target := by
  have file := (shown.holds_withSources orderly).node?_path orderly given
  have links := (shown.sound_withSources batch).edgesBetween_linkAdditions scope file target
  rw [applyAll_buildAdditions, edge?_applyAll, links]
  exact SourceFile.foldl_settle_links (shown.edge?_withSources orderly given target)

theorem Shows.arcs_from_build (shown : Shows scope sources g)
    (orderly : Orderly (sources ++ batch)) {e : Edge}
    (stored : e ∈ (g.applyAll (g.buildAdditions scope batch)).arcs) :
    ∃ s ∈ sources ++ batch, s.path = e.source := by
  by_contra elsewhere
  push Not at elsewhere
  have absent : (g.applyAll (g.buildAdditions scope batch)).edge? e.source e.target = none := by
    have unlinked : edgesBetween e.source e.target ((g.withSources batch).linkAdditions scope) =
        [] := by
      refine List.eq_nil_iff_forall_not_mem.mpr fun link drawn => ?_
      obtain ⟨n, file⟩ :=
        (shown.sound_withSources batch).file_of_mem_edgesBetween_linkAdditions drawn
      obtain ⟨s, given, here, -⟩ := (shown.holds_withSources orderly).path_of_file orderly file
      exact elsewhere s given here
    have undeclared := edgesBetween_batch_eq_nil
      (fun s given => elsewhere s (List.mem_append_right sources given)) e.target
    rw [applyAll_buildAdditions, edge?_applyAll, unlinked, withSources, edge?_applyAll, undeclared]
    exact shown.edge?_eq_none (fun s given => elsewhere s (List.mem_append_left _ given)) _
  rw [edge?_eq_none_iff] at absent
  exact absent (List.mem_map.mpr ⟨e, stored, rfl⟩)

/-- **One build.** A build that brings in more files shows them together with the earlier ones. -/
theorem Shows.build (shown : Shows scope sources g) (orderly : Orderly (sources ++ batch)) :
    Shows scope (sources ++ batch) (g.applyAll (g.buildAdditions scope batch)) where
  sound := (shown.sound.build scope batch).2
  holds := by
    rw [applyAll_buildAdditions]
    exact (shown.holds.addSources orderly).addLinks scope _
  mem_keys_iff := shown.mem_keys_build orderly
  placeholder _ _ := shown.placeholder_build orderly
  edge?_path _ given := shown.edge?_path_build orderly given
  arcs_from _ := shown.arcs_from_build orderly

end Step

/-- Builds one after the other on one graph. Each links again what the ones before it have added. -/
def buildEach (scope : InternalScope) (g : DependencyGraph) (batches : List (List SourceFile)) :
    Except BuildFault DependencyGraph :=
  batches.foldlM (build scope) g

/-- **Several builds.** However files are divided into builds, the graph shows them all in the
end. -/
theorem Shows.buildEach {scope : InternalScope} {sources : List SourceFile} {g : DependencyGraph}
    (shown : Shows scope sources g) {batches : List (List SourceFile)}
    (orderly : Orderly (sources ++ batches.flatten)) :
    ∃ built, g.buildEach scope batches = .ok built ∧
      Shows scope (sources ++ batches.flatten) built := by
  induction batches generalizing sources g with
  | nil => exact ⟨g, rfl, by simpa using shown⟩
  | cons batch rest ih =>
      rw [List.flatten_cons, ← List.append_assoc] at orderly ⊢
      obtain ⟨built, rest_built, rest_shown⟩ := ih (shown.build orderly.of_append_left) orderly
      refine ⟨built, ?_, rest_shown⟩
      rw [DependencyGraph.buildEach, List.foldlM_cons, (shown.sound.build scope batch).1]
      exact rest_built

end DependencyGraph

end SourceAtlas.Graph
