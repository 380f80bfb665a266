/-
# Links that are noted while they are drawn

Linking goes through all records of a file, leaves out those that are not internal, and draws an
edge for each of the others. Here the same loop also notes the records for which it draws an edge.
It leaves the same graph, and what it notes is as many records as are counted.

On the other side stand the dependencies that a file had when it was read. As long as every file
that comes in has the internal specifiers of its records as dependencies, so has every file of the
graph, and they are the specifiers of the records that linking notes.
-/

import Mathlib.Data.List.Perm.Subperm
import SourceAtlas.Proofs.Graph.Reparsing

namespace SourceAtlas.Graph

namespace DependencyGraph

/-- One turn of the loop that links a file: an internal record is linked and noted. -/
def linkStep (scope : InternalScope) (key : String)
    (state : DependencyGraph × List ImportRecord) (r : ImportRecord) :
    Except BuildFault (DependencyGraph × List ImportRecord) :=
  if scope.isInternal r.specifier then
    (linkRecord key state.1 r).map fun g => (g, state.2 ++ [r])
  else .ok state

/-- Links a file and notes the records for which an edge is drawn. -/
def linkTraced (scope : InternalScope) (g : DependencyGraph) (key : String) :
    Except BuildFault (DependencyGraph × List ImportRecord) := do
  let records ← g.importsOf key
  records.foldlM (linkStep scope key) (g, [])

/-- Links one file after others and adds what is noted for it. -/
def linkNext (scope : InternalScope)
    (state : DependencyGraph × List (String × List ImportRecord)) (key : String) :
    Except BuildFault (DependencyGraph × List (String × List ImportRecord)) :=
  (linkTraced scope state.1 key).map fun linked => (linked.1, state.2 ++ [(key, linked.2)])

/-- Links all files and notes for each of them the records for which an edge is drawn. -/
def linkAllTraced (scope : InternalScope) (g : DependencyGraph) :
    Except BuildFault (DependencyGraph × List (String × List ImportRecord)) :=
  (g.keysOfKind .file).foldlM (linkNext scope) (g, [])

theorem foldlM_linkStep (scope : InternalScope) (key : String) (records : List ImportRecord)
    (g : DependencyGraph) (drawn : List ImportRecord) :
    records.foldlM (linkStep scope key) (g, drawn) =
      ((scope.internalRecords records).foldlM (linkRecord key) g).map fun h =>
        (h, drawn ++ scope.internalRecords records) := by
  induction records generalizing g drawn with
  | nil =>
      rw [InternalScope.internalRecords, List.filter_nil, List.append_nil]
      rfl
  | cons r rest ih =>
      rw [List.foldlM_cons, linkStep]
      by_cases internal : scope.isInternal r.specifier = true
      · have kept : scope.internalRecords (r :: rest) = r :: scope.internalRecords rest :=
          List.filter_cons_of_pos internal
        rw [if_pos internal, kept, List.foldlM_cons]
        cases linkRecord key g r with
        | error fault => rfl
        | ok h =>
            apply (ih h (drawn ++ [r])).trans
            rw [List.append_assoc, List.singleton_append]
            rfl
      · have left : scope.internalRecords (r :: rest) = scope.internalRecords rest :=
          List.filter_cons_of_neg internal
        rw [if_neg internal, left]
        exact ih g drawn

/-- What a file that is there is linked to, and what is noted of it. -/
theorem linkTraced_eq_ok {scope : InternalScope} {g : DependencyGraph} {key : String}
    {records : List ImportRecord} (imports : g.importsOf key = .ok records) :
    linkTraced scope g key =
      .ok (g.applyAll ((scope.internalRecords records).flatMap (ImportRecord.linkAdditions key)),
        scope.internalRecords records) := by
  have linked := @linkFile_eq_ok scope g key records imports
  rw [linkFile, imports] at linked
  rw [linkTraced, imports]
  apply (foldlM_linkStep scope key records g []).trans
  rw [show (scope.internalRecords records).foldlM (linkRecord key) g = _ from linked]
  rfl

/-- The loop that notes what it draws is the loop that links a file. -/
theorem linkFile_eq_map_linkTraced (scope : InternalScope) (g : DependencyGraph) (key : String) :
    linkFile scope g key = (linkTraced scope g key).map Prod.fst := by
  cases imports : g.importsOf key with
  | error fault =>
      rw [linkFile, linkTraced, imports]
      rfl
  | ok records =>
      rw [linkFile_eq_ok imports, linkTraced_eq_ok imports]
      rfl

/-- What is counted for a file is what is noted. -/
theorem linkCount_eq_map_linkTraced (scope : InternalScope) (g : DependencyGraph) (key : String) :
    linkCount scope g key = (linkTraced scope g key).map fun linked => linked.2.length := by
  cases imports : g.importsOf key with
  | error fault =>
      rw [linkCount, linkTraced, imports]
      rfl
  | ok records =>
      rw [linkCount, linkTraced_eq_ok imports, imports]
      rfl

/-- The loop over all files, from any graph in which they have the given records. -/
theorem foldlM_linkNext (scope : InternalScope) {files : List (String × List ImportRecord)}
    {g : DependencyGraph} (records : ∀ file ∈ files, g.importsOf file.1 = .ok file.2)
    (notes : List (String × List ImportRecord)) :
    (files.map Prod.fst).foldlM (linkNext scope) (g, notes) =
      .ok (g.applyAll (files.flatMap fun file =>
          (scope.internalRecords file.2).flatMap (ImportRecord.linkAdditions file.1)),
        notes ++ files.map fun file => (file.1, scope.internalRecords file.2)) := by
  induction files generalizing g notes with
  | nil =>
      rw [List.map_nil, List.map_nil, List.append_nil]
      rfl
  | cons file rest ih =>
      obtain ⟨here, later⟩ := List.forall_mem_cons.mp records
      have kept : ∀ other ∈ rest,
          (g.applyAll ((scope.internalRecords file.2).flatMap
            (ImportRecord.linkAdditions file.1))).importsOf other.1 = .ok other.2 :=
        fun other listed => importsOf_applyAll_links (later other listed)
      rw [List.map_cons, List.foldlM_cons, linkNext, linkTraced_eq_ok here, List.flatMap_cons,
        applyAll_append, List.map_cons]
      apply (ih kept _).trans
      rw [List.append_assoc, List.singleton_append]

theorem Sound.importsOf_of_mem_fileImports {g : DependencyGraph} (sound : g.Sound) :
    ∀ file ∈ g.fileImports, g.importsOf file.1 = .ok file.2 := by
  intro file listed
  obtain ⟨n, stored, imports⟩ := mem_fileImports_iff.mp listed
  exact importsOf_eq_ok_iff.mpr ⟨n, node?_of_mem_entries sound.keys_nodup stored, imports⟩

/-- The loop over all files leaves the graph in which they are linked. -/
theorem Sound.linkAllTraced_eq_ok {g : DependencyGraph} (sound : g.Sound) (scope : InternalScope) :
    linkAllTraced scope g = .ok (g.applyAll (g.linkAdditions scope),
      g.fileImports.map fun file => (file.1, scope.internalRecords file.2)) := by
  rw [linkAllTraced, keysOfKind_file, linkAdditions]
  exact foldlM_linkNext scope sound.importsOf_of_mem_fileImports []

theorem mapM_linkCount (scope : InternalScope) {files : List (String × List ImportRecord)}
    {g : DependencyGraph} (records : ∀ file ∈ files, g.importsOf file.1 = .ok file.2) :
    (files.map Prod.fst).mapM (linkCount scope g) =
      .ok (files.map fun file => (scope.internalRecords file.2).length) := by
  induction files with
  | nil => rfl
  | cons file rest ih =>
      obtain ⟨here, later⟩ := List.forall_mem_cons.mp records
      have counted : linkCount scope g file.1 = .ok (scope.internalRecords file.2).length := by
        rw [linkCount_eq_map_linkTraced, linkTraced_eq_ok here]
        rfl
      rw [List.map_cons, List.mapM_cons, counted, ih later]
      rfl

theorem Sound.linkCountAll_eq_ok {g : DependencyGraph} (sound : g.Sound) (scope : InternalScope) :
    linkCountAll scope g =
      .ok ((g.fileImports.map fun file => (scope.internalRecords file.2).length).foldr
        (· + ·) 0) := by
  rw [linkCountAll, keysOfKind_file, mapM_linkCount scope sound.importsOf_of_mem_fileImports]
  rfl

end DependencyGraph

/-- What a file depends on; nothing else depends on anything. -/
def Node.dependencies : Node → List String
  | .file n => n.dependencies
  | _ => []

/-- A file depends on the internal specifiers of its records. -/
def Node.DependsByRecords (scope : InternalScope) (node : Node) : Prop :=
  ∀ n, node = .file n → n.dependencies = scope.dependencies n.imports

theorem Node.DependsByRecords.absorb {scope : InternalScope} {old new : Node}
    (before : old.DependsByRecords scope) (after : new.DependsByRecords scope) :
    (old.absorb new).DependsByRecords scope := by
  cases old with
  | file first =>
      cases new with
      | file second =>
          intro n merged
          cases merged
          exact after second rfl
      | _ => exact before
  | module first =>
      cases new with
      | module second =>
          intro n merged
          cases merged
      | _ => exact after
  | _ =>
      intro n absorbed
      cases new <;> cases absorbed

theorem Node.DependsByRecords.foldl_settle {scope : InternalScope} {nodes : List Node}
    (all : ∀ n ∈ nodes, n.DependsByRecords scope) {start : Option Node}
    (before : ∀ n, start = some n → n.DependsByRecords scope) :
    ∀ n, nodes.foldl Node.settle start = some n → n.DependsByRecords scope := by
  induction nodes generalizing start with
  | nil => exact before
  | cons new rest ih =>
      obtain ⟨here, later⟩ := List.forall_mem_cons.mp all
      apply ih later
      intro n settled
      cases start with
      | none =>
          cases settled
          exact here
      | some old =>
          cases settled
          exact (before old rfl).absorb here

namespace DependencyGraph

/-- Every file of a graph depends on the internal specifiers of its records. -/
def DependsByRecords (scope : InternalScope) (g : DependencyGraph) : Prop :=
  ∀ key n, g.node? key = some n → n.DependsByRecords scope

/-- A history of nodes that depend by their records leaves no others. -/
theorem DependsByRecords.applyAll {scope : InternalScope} {g : DependencyGraph}
    (before : g.DependsByRecords scope) {additions : List Addition}
    (all : ∀ key n, .node key n ∈ additions → n.DependsByRecords scope) :
    (g.applyAll additions).DependsByRecords scope := by
  intro key n found
  rw [node?_applyAll] at found
  apply Node.DependsByRecords.foldl_settle _ (before key) n found
  intro new put
  exact all key new (mem_nodesAt.mp put)

theorem dependsByRecords_empty (scope : InternalScope) : DependsByRecords scope {} := by
  intro key n found
  cases found

/-- How much the files of a graph depend on, all together. -/
def dependencyCount (g : DependencyGraph) : Nat :=
  (g.entries.map fun entry => entry.2.dependencies.length).foldr (· + ·) 0

theorem DependsByRecords.dependencyCount_eq {scope : InternalScope} {g : DependencyGraph}
    (depends : g.DependsByRecords scope) (distinct : g.keys.Nodup) :
    g.dependencyCount =
      (g.fileImports.map fun file => (scope.internalRecords file.2).length).foldr (· + ·) 0 := by
  have each : ∀ entry ∈ g.entries, entry.2.DependsByRecords scope :=
    fun entry stored => depends entry.1 entry.2 (node?_of_mem_entries distinct stored)
  rw [dependencyCount, fileImports]
  generalize g.entries = entries at each
  induction entries with
  | nil => rfl
  | cons entry rest ih =>
      obtain ⟨here, later⟩ := List.forall_mem_cons.mp each
      obtain ⟨key, node⟩ := entry
      rw [List.map_cons, List.foldr_cons, ih later]
      cases node with
      | file n =>
          have same : n.dependencies.length = (scope.internalRecords n.imports).length := by
            rw [here n rfl, InternalScope.dependencies, List.length_map]
          rw [Node.dependencies, same]
          rfl
      | _ => exact Nat.zero_add _

/-- The nodes to which the imports of a node lead, in the order in which they were drawn. -/
def importTargets (g : DependencyGraph) (key : String) : List String :=
  ((g.edgesFrom key).filter fun e => e.kind == .imports).map Edge.target

theorem Sound.mem_importTargets_iff {g : DependencyGraph} (sound : g.Sound)
    {source target : String} :
    target ∈ g.importTargets source ↔ g.HasImport source target := by
  rw [importTargets, List.mem_map, HasImport]
  constructor
  · rintro ⟨e, leaves, rfl⟩
    obtain ⟨leaves, kind⟩ := List.mem_filter.mp leaves
    obtain ⟨stored, here⟩ := List.mem_filter.mp leaves
    refine ⟨e, (mem_edges_iff sound.ends_stored).mpr stored, ?_, eq_of_beq kind⟩
    rw [Edge.ends, eq_of_beq here]
  · rintro ⟨e, listed, ends, kind⟩
    cases ends
    have stored := (mem_edges_iff sound.ends_stored).mp listed
    refine ⟨e, List.mem_filter.mpr ⟨List.mem_filter.mpr ⟨stored, ?_⟩, ?_⟩, rfl⟩
    · exact beq_self_eq_true _
    · rw [kind]
      rfl

/-- No two imports of a node lead to the same one. -/
theorem Sound.nodup_importTargets {g : DependencyGraph} (sound : g.Sound) (key : String) :
    (g.importTargets key).Nodup := by
  have ends : ((g.edgesFrom key).filter fun e => e.kind == .imports).map Edge.ends =
      (g.importTargets key).map (Prod.mk key) := by
    rw [importTargets, List.map_map]
    apply List.map_congr_left
    intro e leaves
    have here := (List.mem_filter.mp (List.mem_filter.mp leaves).1).2
    rw [Function.comp_apply, Edge.ends, eq_of_beq here]
  have distinct : ((g.edgesFrom key).filter fun e => e.kind == .imports).map Edge.ends |>.Nodup :=
    sound.ends_nodup.sublist ((List.filter_sublist.trans List.filter_sublist).map Edge.ends)
  rw [ends] at distinct
  exact distinct.of_map _

/-! ## Builds -/

/-- A file with the records for which linking draws an edge: the specifiers of the records are its
dependencies, and their targets are what its imports lead to. -/
structure IsLinkedBy (g : DependencyGraph) (key : String) (n : FileNode)
    (drawn : List ImportRecord) : Prop where
  records : drawn.Sublist n.imports
  dependencies : n.dependencies = drawn.map ImportRecord.specifier
  targets : ∀ target,
    target ∈ g.importTargets key ↔ target ∈ drawn.map ImportRecord.targetKey
  targets_le : (g.importTargets key).length ≤ n.dependencies.length

/-- The dependencies of the files of a graph are the links that were drawn when it was built, and
the links that would be drawn again: for each file, and counted for each file and for all. -/
structure DependenciesAreLinks (scope : InternalScope) (sources : List SourceFile)
    (g : DependencyGraph) : Prop where
  drawn : ∃ added notes, sources.foldlM addSource {} = .ok added ∧
    linkAll scope added = .ok g ∧ linkAllTraced scope added = .ok (g, notes) ∧
    linkCountAll scope added = .ok g.dependencyCount ∧
    notes.map Prod.fst = g.keysOfKind .file ∧
    ∀ key n, g.node? key = some (.file n) → ∃ records, (key, records) ∈ notes ∧
      g.IsLinkedBy key n records ∧ linkCount scope added key = .ok n.dependencies.length
  again : linkCountAll scope g = .ok g.dependencyCount ∧
    ∀ key n, g.node? key = some (.file n) → linkCount scope g key = .ok n.dependencies.length

theorem fileImports_applyAll_linkAdditions {g : DependencyGraph} (sound : g.Sound)
    (scope : InternalScope) :
    (g.applyAll (g.linkAdditions scope)).fileImports = g.fileImports := by
  apply fileImports_congr
  · exact (sound.applyAll_linkAdditions scope).keys_nodup
  · exact exists_keys_applyAll _ _
  · exact filter_isSolid_node?_applyAll_linkAdditions scope g g

/-- Files that depend on the internal specifiers of their records still do in the graph. -/
theorem dependsByRecords_withSources {scope : InternalScope} {sources : List SourceFile}
    (depends : ∀ s ∈ sources, s.dependencies = scope.dependencies s.imports)
    (plain : DeclarePlain sources) :
    (({} : DependencyGraph).withSources sources).DependsByRecords scope := by
  apply (dependsByRecords_empty scope).applyAll
  intro key node put n file
  obtain ⟨s, given, ⟨-, rfl⟩ | ⟨declared, -⟩⟩ := mem_nodesAt_sources.mp (mem_nodesAt.mpr put)
  · cases file
    exact depends s given
  · rw [file] at declared
    rcases plain s given _ declared with kind | kind <;> cases kind

theorem DependsByRecords.linked {scope : InternalScope} {g : DependencyGraph}
    (depends : g.DependsByRecords scope) :
    (g.applyAll (g.linkAdditions scope)).DependsByRecords scope := by
  apply depends.applyAll
  intro key node put n file
  rw [← mem_nodesAt, nodesAt_linkAdditions] at put
  obtain ⟨r, -, rfl⟩ := List.mem_map.mp put
  cases file

/-- In the graph of some files, imports are what the records ask for. -/
theorem hasImport_buildGraph_iff {scope : InternalScope} {sources : List SourceFile}
    {g : DependencyGraph} (made : buildGraph scope sources = .ok g) {source target : String} :
    g.HasImport source target ↔ g.HasRecord scope source target := by
  cases (sound_empty.build scope sources).1.symm.trans made
  rw [sound_empty.hasImport_build]
  simp only [hasImport_empty, false_and, or_false]

theorem isLinkedBy_of_buildGraph {scope : InternalScope} {sources : List SourceFile}
    {g : DependencyGraph} (made : buildGraph scope sources = .ok g)
    (depends : g.DependsByRecords scope) {key : String} {n : FileNode}
    (found : g.node? key = some (.file n)) :
    g.IsLinkedBy key n (scope.internalRecords n.imports) := by
  have sound : g.Sound := by
    obtain ⟨built, sound⟩ := sound_empty.build scope sources
    cases built.symm.trans made
    exact sound
  have dependencies := depends key _ found n rfl
  have targets (target : String) : target ∈ g.importTargets key ↔
      target ∈ (scope.internalRecords n.imports).map ImportRecord.targetKey := by
    rw [sound.mem_importTargets_iff, hasImport_buildGraph_iff made, List.mem_map]
    constructor
    · rintro ⟨other, also, r, internal, leads⟩
      cases found.symm.trans also
      exact ⟨r, internal, leads⟩
    · rintro ⟨r, internal, leads⟩
      exact ⟨n, found, r, internal, leads⟩
  refine ⟨List.filter_sublist, dependencies, targets, ?_⟩
  calc (g.importTargets key).length
      ≤ ((scope.internalRecords n.imports).map ImportRecord.targetKey).length := by
        apply List.Subperm.length_le
        apply (sound.nodup_importTargets key).subperm
        intro target leads
        exact (targets target).mp leads
    _ = n.dependencies.length := by
        rw [dependencies, InternalScope.dependencies, List.length_map, List.length_map]

/-- What is counted for a file, in any graph with the same files, is what it depends on. -/
theorem DependsByRecords.linkCount_eq_ok {scope : InternalScope} {g h : DependencyGraph}
    (depends : g.DependsByRecords scope) (sound : h.Sound) (same : h.fileImports = g.fileImports)
    {key : String} {n : FileNode} (found : g.node? key = some (.file n)) :
    linkCount scope h key = .ok n.dependencies.length := by
  have listed : (key, n.imports) ∈ h.fileImports := by
    rw [same]
    exact mem_fileImports_iff.mpr ⟨n, mem_entries_of_node? found, rfl⟩
  rw [linkCount_eq_map_linkTraced, linkTraced_eq_ok (sound.importsOf_of_mem_fileImports _ listed),
    depends key _ found n rfl, InternalScope.dependencies, List.length_map]
  rfl

/-- **Dependencies are links.** If files depend on the internal specifiers of their records, then
the dependencies of every file in their graph are the records for which an edge is drawn. -/
theorem dependenciesAreLinks_of_buildGraph {scope : InternalScope} {sources : List SourceFile}
    (depends : ∀ s ∈ sources, s.dependencies = scope.dependencies s.imports)
    (plain : DeclarePlain sources) {g : DependencyGraph}
    (made : buildGraph scope sources = .ok g) : DependenciesAreLinks scope sources g := by
  obtain ⟨added, adds, addedSound, before, linked⟩ : ∃ added,
      sources.foldlM addSource {} = .ok added ∧ added.Sound ∧ added.DependsByRecords scope ∧
        added.applyAll (added.linkAdditions scope) = g := by
    obtain ⟨adds, sound⟩ := sound_empty.addSources sources
    refine ⟨_, adds, sound, dependsByRecords_withSources depends plain, ?_⟩
    cases (sound_empty.build scope sources).1.symm.trans made
    exact (applyAll_buildAdditions scope {} sources).symm
  have sound : g.Sound := linked ▸ addedSound.applyAll_linkAdditions scope
  have after : g.DependsByRecords scope := linked ▸ before.linked
  have files : g.fileImports = added.fileImports :=
    linked ▸ fileImports_applyAll_linkAdditions addedSound scope
  have count := after.dependencyCount_eq sound.keys_nodup
  have traced := addedSound.linkAllTraced_eq_ok scope
  rw [linked] at traced
  constructor
  · refine ⟨added, _, adds, ?_, traced, ?_, ?_, ?_⟩
    · rw [addedSound.linkAll_eq_ok, linked]
    · rw [addedSound.linkCountAll_eq_ok, count, files]
    · rw [keysOfKind_file, files, List.map_map]
      rfl
    · intro key n found
      refine ⟨_, ?_, isLinkedBy_of_buildGraph made after found, ?_⟩
      · rw [← files, List.mem_map]
        exact ⟨(key, n.imports), mem_fileImports_iff.mpr ⟨n, mem_entries_of_node? found, rfl⟩, rfl⟩
      · exact after.linkCount_eq_ok addedSound files.symm found
  · constructor
    · rw [sound.linkCountAll_eq_ok, count]
    · intro key n found
      exact after.linkCount_eq_ok sound rfl found

end DependencyGraph

end SourceAtlas.Graph
