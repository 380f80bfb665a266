/-
# What one file contributes

The additions of a build, taken apart by file: what a source file puts under a key, which edges it
draws to its declarations, and which placeholders and links its import records ask for. A file
contributes edges only from its own key, and the links of a graph are those of its files.
-/

import SourceAtlas.Proofs.Graph.Integrity

namespace SourceAtlas.Graph

theorem nodesAt_append (key : String) (first second : List Addition) :
    nodesAt key (first ++ second) = nodesAt key first ++ nodesAt key second :=
  List.filterMap_append

theorem edgesBetween_append (source target : String) (first second : List Addition) :
    edgesBetween source target (first ++ second) =
      edgesBetween source target first ++ edgesBetween source target second :=
  List.filterMap_append

theorem nodesAt_flatMap {α : Type} (key : String) (additions : α → List Addition)
    (items : List α) :
    nodesAt key (items.flatMap additions) = items.flatMap fun a => nodesAt key (additions a) :=
  List.filterMap_flatMap

theorem edgesBetween_flatMap {α : Type} (source target : String) (additions : α → List Addition)
    (items : List α) :
    edgesBetween source target (items.flatMap additions) =
      items.flatMap fun a => edgesBetween source target (additions a) :=
  List.filterMap_flatMap

theorem edgesBetween_node_edge (source target key : String) (n : Node) (e : Edge) :
    edgesBetween source target [.node key n, .edge e] =
      if e.joins source target then [e] else [] := by
  by_cases here : e.joins source target
  · rw [if_pos here]
    simp [edgesBetween, Addition.edgeBetween?, List.filterMap_cons, here]
  · rw [if_neg here]
    simp [edgesBetween, Addition.edgeBetween?, List.filterMap_cons, here]

theorem nodesAt_node_edge (k key : String) (n : Node) (e : Edge) :
    nodesAt k [.node key n, .edge e] = if key = k then [n] else [] := by
  by_cases here : key = k
  · rw [if_pos here]
    simp [nodesAt, Addition.nodeAt?, List.filterMap_cons, here]
  · rw [if_neg here]
    simp [nodesAt, Addition.nodeAt?, List.filterMap_cons, here]

namespace SourceFile

/-- Whether a file declares something under a key. -/
def Declares (source : SourceFile) (key : String) : Prop :=
  ∃ d ∈ source.declarations, d.uniqueId = key

/-- Whether an internal import of a file leads to a key. -/
def Links (scope : InternalScope) (source : SourceFile) (key : String) : Prop :=
  ∃ r ∈ source.imports, scope.isInternal r.specifier = true ∧ r.targetKey = key

/-- The internal records of a file that lead to a key, in their order. -/
def recordsTo (scope : InternalScope) (source : SourceFile) (key : String) : List ImportRecord :=
  (scope.internalRecords source.imports).filter fun r => r.targetKey = key

theorem mem_recordsTo {scope : InternalScope} {source : SourceFile} {key : String}
    {r : ImportRecord} :
    r ∈ source.recordsTo scope key ↔
      r ∈ source.imports ∧ scope.isInternal r.specifier = true ∧ r.targetKey = key := by
  rw [recordsTo, List.mem_filter, InternalScope.internalRecords, List.mem_filter, and_assoc,
    decide_eq_true_eq]

theorem recordsTo_eq_nil_iff {scope : InternalScope} {source : SourceFile} {key : String} :
    source.recordsTo scope key = [] ↔ ¬ source.Links scope key := by
  simp [List.eq_nil_iff_forall_not_mem, mem_recordsTo, Links]

/-- The nodes that a file puts under a key: itself, and what it declares there. -/
theorem nodesAt_additions (source : SourceFile) (key : String) :
    nodesAt key source.additions =
      (if source.path = key then [source.fileNode] else []) ++
        source.declarations.filter fun d => d.uniqueId = key := by
  have declared :
      nodesAt key (source.declarations.flatMap (Node.declarationAdditions source.path)) =
        source.declarations.filter fun d => d.uniqueId = key := by
    induction source.declarations with
    | nil => rfl
    | cons d rest ih =>
        rw [List.flatMap_cons, nodesAt_append, ih, Node.declarationAdditions, nodesAt_node_edge,
          List.filter_cons]
        by_cases here : d.uniqueId = key <;> simp [here]
  rw [additions, ← declared]
  by_cases here : source.path = key <;> simp [nodesAt, Addition.nodeAt?, here]

theorem nodesAt_additions_eq_nil_iff {source : SourceFile} {key : String} :
    nodesAt key source.additions = [] ↔ source.path ≠ key ∧ ¬ source.Declares key := by
  rw [nodesAt_additions, List.append_eq_nil_iff, List.filter_eq_nil_iff]
  simp [Declares]

/-- The edges that a file draws to what it declares. -/
theorem edgesBetween_additions (source : SourceFile) (start target : String) :
    edgesBetween start target source.additions =
      if source.path = start then
        (source.declarations.filter fun d => d.uniqueId = target).map (Node.containment source.path)
      else [] := by
  have skipped : edgesBetween start target source.additions =
      edgesBetween start target
        (source.declarations.flatMap (Node.declarationAdditions source.path)) := rfl
  rw [skipped]
  induction source.declarations with
  | nil => simp [edgesBetween]
  | cons d rest ih =>
      rw [List.flatMap_cons, edgesBetween_append, ih, Node.declarationAdditions,
        edgesBetween_node_edge, List.filter_cons]
      by_cases here : source.path = start <;> by_cases there : d.uniqueId = target <;>
        simp [Node.containment, Edge.joins, here, there]

end SourceFile

/-- Where every item is owned by someone else and one owner matters, only its item counts. -/
theorem flatMap_eq_of_owner {α β κ : Type} {owner : α → κ} {f : α → List β} {items : List α}
    (distinct : (items.map owner).Nodup) {a : α} (given : a ∈ items)
    (others : ∀ b ∈ items, owner b ≠ owner a → f b = []) : items.flatMap f = f a := by
  induction items with
  | nil => simp at given
  | cons b rest ih =>
      rw [List.map_cons, List.nodup_cons] at distinct
      obtain ⟨fresh, distinct⟩ := distinct
      rw [List.flatMap_cons]
      rcases List.mem_cons.mp given with rfl | below
      · have nothing : rest.flatMap f = [] := by
          rw [List.flatMap_eq_nil_iff]
          intro c later
          refine others c (List.mem_cons_of_mem _ later) fun same => fresh ?_
          exact List.mem_map.mpr ⟨c, later, same⟩
        rw [nothing, List.append_nil]
      · have away : owner b ≠ owner a := by
          intro same
          exact fresh (List.mem_map.mpr ⟨a, below, same.symm⟩)
        rw [others b List.mem_cons_self away, List.nil_append]
        exact ih distinct below fun c later => others c (List.mem_cons_of_mem _ later)

theorem nodesAt_recordLinks (key fileKey : String) (records : List ImportRecord) :
    nodesAt key (records.flatMap (ImportRecord.linkAdditions fileKey)) =
      (records.filter fun r => r.targetKey = key).map ImportRecord.placeholder := by
  induction records with
  | nil => rfl
  | cons r rest ih =>
      rw [List.flatMap_cons, nodesAt_append, ih, ImportRecord.linkAdditions, nodesAt_node_edge,
        List.filter_cons]
      by_cases here : r.targetKey = key <;> simp [here]

theorem edgesBetween_recordLinks (source target fileKey : String) (records : List ImportRecord) :
    edgesBetween source target (records.flatMap (ImportRecord.linkAdditions fileKey)) =
      if fileKey = source then
        (records.filter fun r => r.targetKey = target).map (ImportRecord.link fileKey)
      else [] := by
  induction records with
  | nil => simp [edgesBetween]
  | cons r rest ih =>
      rw [List.flatMap_cons, edgesBetween_append, ih, ImportRecord.linkAdditions,
        edgesBetween_node_edge, List.filter_cons]
      by_cases here : fileKey = source <;> by_cases there : r.targetKey = target <;>
        simp [ImportRecord.link, Edge.joins, here, there]

namespace DependencyGraph

/-- The records for which links are drawn, in the order in which they are. -/
def linkOrder (scope : InternalScope) (g : DependencyGraph) : List ImportRecord :=
  g.fileImports.flatMap fun file => scope.internalRecords file.2

/-- The placeholders that links put under a key. -/
theorem nodesAt_linkAdditions (scope : InternalScope) (g : DependencyGraph) (key : String) :
    nodesAt key (g.linkAdditions scope) =
      ((g.linkOrder scope).filter fun r => r.targetKey = key).map ImportRecord.placeholder := by
  rw [linkAdditions, nodesAt_flatMap, linkOrder, List.filter_flatMap, List.map_flatMap]
  simp only [nodesAt_recordLinks]

/-- Links bring in placeholders only. -/
theorem filter_isSolid_nodesAt_linkAdditions (scope : InternalScope) (g : DependencyGraph)
    (key : String) : (nodesAt key (g.linkAdditions scope)).filter Node.isSolid = [] := by
  rw [nodesAt_linkAdditions, List.filter_eq_nil_iff]
  intro n put
  obtain ⟨r, -, rfl⟩ := List.mem_map.mp put
  simp [ImportRecord.placeholder, Node.isSolid, Node.kind]

/-- Links leave every file, component and utility as it is, and bring in no others. -/
theorem filter_isSolid_node?_applyAll_linkAdditions (scope : InternalScope)
    (g h : DependencyGraph) (key : String) :
    ((g.applyAll (h.linkAdditions scope)).node? key).filter Node.isSolid =
      (g.node? key).filter Node.isSolid := by
  rw [node?_applyAll, Node.filter_foldl_settle, filter_isSolid_nodesAt_linkAdditions]
  rfl

theorem fileImports_keys_nodup {g : DependencyGraph} (distinct : g.keys.Nodup) :
    (g.fileImports.map Prod.fst).Nodup := by
  rw [← keysOfKind_file, keysOfKind]
  exact distinct.sublist (List.filter_sublist.map Prod.fst)

/-- The links that are drawn from a file. -/
theorem Sound.edgesBetween_linkAdditions {g : DependencyGraph} (sound : g.Sound)
    (scope : InternalScope) {key : String} {n : FileNode} (found : g.node? key = some (.file n))
    (target : String) :
    edgesBetween key target (g.linkAdditions scope) =
      ((scope.internalRecords n.imports).filter fun r => r.targetKey = target).map
        (ImportRecord.link key) := by
  have listed : (key, n.imports) ∈ g.fileImports :=
    mem_fileImports_iff.mpr ⟨n, mem_entries_of_node? found, rfl⟩
  rw [linkAdditions, edgesBetween_flatMap,
    flatMap_eq_of_owner (fileImports_keys_nodup sound.keys_nodup) listed]
  · rw [edgesBetween_recordLinks, if_pos rfl]
  · intro file _ away
    rw [edgesBetween_recordLinks, if_neg away]

/-- Links are drawn from files only. -/
theorem Sound.file_of_mem_edgesBetween_linkAdditions {g : DependencyGraph} (sound : g.Sound)
    {scope : InternalScope} {source target : String} {e : Edge}
    (drawn : e ∈ edgesBetween source target (g.linkAdditions scope)) :
    ∃ n, g.node? source = some (.file n) := by
  obtain ⟨made, joined⟩ := mem_edgesBetween.mp drawn
  obtain ⟨key, n, found, r, -, added⟩ := sound.mem_linkAdditions_iff.mp made
  rcases ImportRecord.mem_linkAdditions_iff.mp added with node | edge
  · cases node
  · cases edge
    rw [Edge.joins_eq_true_iff] at joined
    cases joined
    exact ⟨n, found⟩

end DependencyGraph

end SourceAtlas.Graph
