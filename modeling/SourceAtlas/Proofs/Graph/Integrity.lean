/-
# Building never fails

A graph is sound if every node stands under its own key, no key and no pair of ends occurs twice,
and the ends of every edge are stored. A build on a sound graph is a history of additions that can
be written down beforehand: the files with what they declare, then the links of every file that is
there by then. No check of a step can fail on the way, and the graph is sound again at the end.

Nothing is assumed of the source files: paths may repeat, declarations may be of any variant, and
keys may collide in any way.
-/

import SourceAtlas.Proofs.Graph.Settling

namespace SourceAtlas.Graph

/-- The additions that put a declaration into its file. -/
def Node.declarationAdditions (fileKey : String) (declaration : Node) : List Addition :=
  [.node declaration.uniqueId declaration, .edge (declaration.containment fileKey)]

/-- The additions that bring in a source file and what it declares. -/
def SourceFile.additions (source : SourceFile) : List Addition :=
  .node source.path source.fileNode ::
    source.declarations.flatMap (Node.declarationAdditions source.path)

/-- The additions that link a file to what a record imports. -/
def ImportRecord.linkAdditions (fileKey : String) (r : ImportRecord) : List Addition :=
  [.node r.targetKey r.placeholder, .edge (r.link fileKey)]

theorem SourceFile.mem_additions_iff {source : SourceFile} {a : Addition} :
    a ∈ source.additions ↔ a = .node source.path source.fileNode ∨
      ∃ d ∈ source.declarations,
        a = .node d.uniqueId d ∨ a = .edge (d.containment source.path) := by
  simp [SourceFile.additions, Node.declarationAdditions]

theorem SourceFile.fileNode_mem_additions (source : SourceFile) :
    .node source.path source.fileNode ∈ source.additions :=
  mem_additions_iff.mpr (.inl rfl)

theorem SourceFile.declaration_mem_additions {source : SourceFile} {d : Node}
    (declared : d ∈ source.declarations) : .node d.uniqueId d ∈ source.additions :=
  mem_additions_iff.mpr (.inr ⟨d, declared, .inl rfl⟩)

theorem ImportRecord.mem_linkAdditions_iff {fileKey : String} {r : ImportRecord} {a : Addition} :
    a ∈ r.linkAdditions fileKey ↔
      a = .node r.targetKey r.placeholder ∨ a = .edge (r.link fileKey) := by
  simp [linkAdditions]

namespace DependencyGraph

/-- The import records of a file node; nothing else has any. -/
def fileImports? : Node → Option (List ImportRecord)
  | .file n => some n.imports
  | _ => none

/-- The keys of the files with their import records, in the order of the graph. -/
def fileImports (g : DependencyGraph) : List (String × List ImportRecord) :=
  g.entries.filterMap fun entry => (fileImports? entry.2).map (Prod.mk entry.1)

/-- The additions that link every file of a graph. -/
def linkAdditions (scope : InternalScope) (g : DependencyGraph) : List Addition :=
  g.fileImports.flatMap fun file =>
    (scope.internalRecords file.2).flatMap (ImportRecord.linkAdditions file.1)

def buildAdditions (scope : InternalScope) (g : DependencyGraph) (sources : List SourceFile) :
    List Addition :=
  sources.flatMap SourceFile.additions ++
    (g.applyAll (sources.flatMap SourceFile.additions)).linkAdditions scope

/-- Every node stands under its own key, nothing occurs twice, and no edge dangles. -/
structure Sound (g : DependencyGraph) : Prop where
  keyed : ∀ {key : String} {n : Node}, g.node? key = some n → n.uniqueId = key
  keys_nodup : g.keys.Nodup
  ends_nodup : (g.arcs.map Edge.ends).Nodup
  ends_stored : ∀ e ∈ g.arcs, e.source ∈ g.keys ∧ e.target ∈ g.keys

theorem sound_empty : Sound {} where
  keyed found := by simp [node?] at found
  keys_nodup := List.nodup_nil
  ends_nodup := List.nodup_nil
  ends_stored e stored := by simp at stored

/-- What an addition needs to keep a graph sound: a node comes under its own key, and the ends of
an edge are among the given keys. -/
def Addition.IsGrounded (keys : List String) : Addition → Prop
  | .node key n => n.uniqueId = key
  | .edge e => e.source ∈ keys ∧ e.target ∈ keys

/-- A history whose edges end at stored nodes keeps a graph sound. -/
theorem Sound.applyAll {g : DependencyGraph} (sound : g.Sound) {additions : List Addition}
    (grounded : ∀ a ∈ additions, Addition.IsGrounded (g.applyAll additions).keys a) :
    (g.applyAll additions).Sound where
  keyed {key n} found := by
    rw [node?_applyAll] at found
    refine Node.uniqueId_foldl_settle (fun old stored => sound.keyed stored) ?_ found
    intro new put
    exact grounded _ (mem_nodesAt.mp put)
  keys_nodup := nodup_keys_applyAll sound.keys_nodup additions
  ends_nodup := nodup_ends_applyAll sound.ends_nodup additions
  ends_stored e stored := by
    have found : (g.applyAll additions).edge? e.source e.target ≠ none := by
      rw [ne_eq, edge?_eq_none_iff, not_not]
      exact List.mem_map.mpr ⟨e, stored, rfl⟩
    rw [edge?_applyAll, ne_eq, foldl_edgeSettle_eq_none_iff, not_and_or] at found
    rcases found with before | put
    · rw [edge?_eq_none_iff, not_not] at before
      obtain ⟨old, old_stored, same⟩ := List.mem_map.mp before
      have ends := sound.ends_stored old old_stored
      rw [Edge.ends, Prod.mk.injEq] at same
      rw [same.1, same.2] at ends
      exact ⟨mem_keys_applyAll.mpr (.inl ends.1), mem_keys_applyAll.mpr (.inl ends.2)⟩
    · obtain ⟨new, new_put⟩ := List.exists_mem_of_ne_nil _ put
      obtain ⟨made, joined⟩ := mem_edgesBetween.mp new_put
      have same := Edge.joins_eq_true_iff.mp joined
      have ends := grounded _ made
      rw [Edge.ends, Prod.mk.injEq] at same
      rwa [Addition.IsGrounded, same.1, same.2] at ends

/-- No attribute of an edge has a reserved name. -/
def HasFreeAttributes (e : Edge) : Prop :=
  ∀ name ∈ e.attributes.map Prod.fst, name ∉ requestNames ∧ name ∉ storageNames

theorem checkAttributes_eq_ok {reserved : List String} {e : Edge}
    (free : ∀ name ∈ e.attributes.map Prod.fst, name ∉ reserved) :
    checkAttributes reserved e = .ok () := by
  have nothing : (e.attributes.map Prod.fst).find? reserved.contains = none := by
    rw [List.find?_eq_none]
    intro name given taken
    exact free name given (List.contains_iff_mem.mp taken)
  rw [checkAttributes, nothing]

theorem checkEnds_eq_ok {g : DependencyGraph} {e : Edge} (source : e.source ∈ g.keys)
    (target : e.target ∈ g.keys) : g.checkEnds e = .ok () := by
  have nothing : [e.source, e.target].find? (fun key => !g.hasNode key) = none := by
    simp [hasNode, source, target]
  rw [checkEnds, nothing]

theorem addEdge_eq_ok {g : DependencyGraph} {e : Edge} (free : HasFreeAttributes e)
    (source : e.source ∈ g.keys) (target : e.target ∈ g.keys) :
    g.addEdge e = .ok (g.apply (.edge e)) := by
  rw [addEdge, checkAttributes_eq_ok fun name given => (free name given).1,
    checkEnds_eq_ok source target, checkAttributes_eq_ok fun name given => (free name given).2]
  rfl

theorem hasFreeAttributes_containment (fileKey : String) (declaration : Node) :
    HasFreeAttributes (declaration.containment fileKey) := by
  simp [HasFreeAttributes, Node.containment]

theorem hasFreeAttributes_link (fileKey : String) (r : ImportRecord) :
    HasFreeAttributes (r.link fileKey) := by
  simp [HasFreeAttributes, ImportRecord.link, requestNames, storageNames]

/-- A fold of steps that each make known additions makes them all, one after the other, and keeps
what each of them keeps. -/
theorem foldlM_eq_ok_applyAll {α : Type} (Ready : DependencyGraph → Prop)
    {step : DependencyGraph → α → Except BuildFault DependencyGraph}
    {additions : α → List Addition} {items : List α}
    (makes : ∀ g, Ready g → ∀ a ∈ items, step g a = .ok (g.applyAll (additions a)) ∧
      Ready (g.applyAll (additions a)))
    {g : DependencyGraph} (ready : Ready g) :
    items.foldlM step g = .ok (g.applyAll (items.flatMap additions)) ∧
      Ready (g.applyAll (items.flatMap additions)) := by
  induction items generalizing g with
  | nil => exact ⟨rfl, ready⟩
  | cons a rest ih =>
      have first := makes g ready a List.mem_cons_self
      rw [List.foldlM_cons, first.1, List.flatMap_cons, applyAll_append]
      exact ih (fun g ready b later => makes g ready b (List.mem_cons_of_mem _ later)) first.2

theorem addNode_eq_applyAll (g : DependencyGraph) (key : String) (n : Node) :
    g.addNode key n = g.applyAll [.node key n] := rfl

/-- A node and an edge to it are added where the other end is stored. -/
theorem addNode_addEdge_eq_ok {g : DependencyGraph} {e : Edge} (n : Node)
    (free : HasFreeAttributes e) (source : e.source ∈ g.keys) :
    liftFault ((g.addNode e.target n).addEdge e) =
      .ok (g.applyAll [.node e.target n, .edge e]) := by
  have source' : e.source ∈ (g.addNode e.target n).keys := by
    rw [addNode_eq_applyAll]
    exact mem_keys_applyAll.mpr (.inl source)
  have target' : e.target ∈ (g.addNode e.target n).keys := by
    rw [addNode_eq_applyAll]
    exact mem_keys_applyAll.mpr (.inr ⟨n, List.mem_singleton_self _⟩)
  rw [addEdge_eq_ok free source' target']
  rfl

theorem addDeclaration_eq_ok {g : DependencyGraph} {fileKey : String} (stored : fileKey ∈ g.keys)
    (declaration : Node) :
    addDeclaration fileKey g declaration =
      .ok (g.applyAll (declaration.declarationAdditions fileKey)) :=
  addNode_addEdge_eq_ok declaration (hasFreeAttributes_containment fileKey declaration) stored

/-- The key under which an added file stands is its path. -/
theorem Sound.storedFileKey_addNode {g : DependencyGraph} (sound : g.Sound) (source : SourceFile) :
    (g.addNode source.path source.fileNode).storedFileKey source = source.path := by
  rw [storedFileKey]
  cases found : (g.addNode source.path source.fileNode).node? source.path with
  | none => rfl
  | some n =>
      have grounded : ∀ a ∈ [Addition.node source.path source.fileNode],
          Addition.IsGrounded (g.applyAll [.node source.path source.fileNode]).keys a := by
        intro a made
        rw [List.mem_singleton.mp made]
        rfl
      exact (sound.applyAll grounded).keyed found

theorem Sound.addSource_eq_ok {g : DependencyGraph} (sound : g.Sound) (source : SourceFile) :
    g.addSource source = .ok (g.applyAll source.additions) := by
  rw [addSource, sound.storedFileKey_addNode, SourceFile.additions, applyAll_cons]
  have stored : source.path ∈ (g.addNode source.path source.fileNode).keys := by
    rw [addNode_eq_applyAll]
    exact mem_keys_applyAll.mpr (.inr ⟨_, List.mem_singleton_self _⟩)
  refine (foldlM_eq_ok_applyAll (source.path ∈ ·.keys) (fun g stored declaration _ => ?_) stored).1
  exact ⟨addDeclaration_eq_ok stored declaration, mem_keys_applyAll.mpr (.inl stored)⟩

theorem Sound.applyAll_additions {g : DependencyGraph} (sound : g.Sound) (source : SourceFile) :
    (g.applyAll source.additions).Sound := by
  refine sound.applyAll fun a made => ?_
  rcases SourceFile.mem_additions_iff.mp made with rfl | ⟨d, declared, rfl | rfl⟩
  · rfl
  · rfl
  · exact ⟨mem_keys_applyAll.mpr (.inr ⟨_, source.fileNode_mem_additions⟩),
      mem_keys_applyAll.mpr (.inr ⟨d, SourceFile.declaration_mem_additions declared⟩)⟩

theorem Sound.addSources {g : DependencyGraph} (sound : g.Sound) (sources : List SourceFile) :
    sources.foldlM addSource g = .ok (g.applyAll (sources.flatMap SourceFile.additions)) ∧
      (g.applyAll (sources.flatMap SourceFile.additions)).Sound :=
  foldlM_eq_ok_applyAll Sound
    (fun _ sound source _ => ⟨sound.addSource_eq_ok source, sound.applyAll_additions source⟩) sound

/-! ## Links -/

theorem linkRecord_eq_ok {g : DependencyGraph} {fileKey : String} (stored : fileKey ∈ g.keys)
    (r : ImportRecord) :
    linkRecord fileKey g r = .ok (g.applyAll (r.linkAdditions fileKey)) :=
  addNode_addEdge_eq_ok r.placeholder (hasFreeAttributes_link fileKey r) stored

theorem linkFile_eq_ok {scope : InternalScope} {g : DependencyGraph} {key : String}
    {records : List ImportRecord} (imports : g.importsOf key = .ok records) :
    linkFile scope g key =
      .ok (g.applyAll
        ((scope.internalRecords records).flatMap (ImportRecord.linkAdditions key))) := by
  have stored : key ∈ g.keys := by
    rw [mem_keys_iff]
    cases found : g.node? key with
    | none => simp [importsOf, found] at imports
    | some n => exact ⟨n, rfl⟩
  rw [linkFile, imports]
  refine (foldlM_eq_ok_applyAll (key ∈ ·.keys) (fun g stored r _ => ?_) stored).1
  exact ⟨linkRecord_eq_ok stored r, mem_keys_applyAll.mpr (.inl stored)⟩

theorem importsOf_eq_ok_iff {g : DependencyGraph} {key : String} {records : List ImportRecord} :
    g.importsOf key = .ok records ↔ ∃ n, g.node? key = some (.file n) ∧ n.imports = records := by
  rw [importsOf]
  split
  next n found => simp [found]
  next absent =>
    constructor
    · intro imports
      cases imports
    · rintro ⟨n, found, -⟩
      exact absurd found (absent n)

theorem node?_applyAll_of_file {g : DependencyGraph} {key : String} {n : FileNode}
    (found : g.node? key = some (.file n)) {additions : List Addition}
    (others : ∀ m, .node key m ∈ additions → m.kind ≠ .file) :
    (g.applyAll additions).node? key = some (.file n) := by
  rw [node?_applyAll, found]
  exact Node.foldl_settle_file fun m put => others m (mem_nodesAt.mp put)

/-- Links put nothing but placeholders under any key, so every file stays as it is. -/
theorem importsOf_applyAll_links {g : DependencyGraph} {fileKey key : String}
    {records imported : List ImportRecord} (imports : g.importsOf key = .ok imported) :
    (g.applyAll (records.flatMap (ImportRecord.linkAdditions fileKey))).importsOf key =
      .ok imported := by
  obtain ⟨n, found, same⟩ := importsOf_eq_ok_iff.mp imports
  refine importsOf_eq_ok_iff.mpr ⟨n, node?_applyAll_of_file found ?_, same⟩
  intro m put
  obtain ⟨r, -, made⟩ := List.mem_flatMap.mp put
  rcases ImportRecord.mem_linkAdditions_iff.mp made with node | edge
  · cases node
    simp [ImportRecord.placeholder, Node.kind]
  · cases edge

theorem mem_fileImports_iff {g : DependencyGraph} {key : String} {records : List ImportRecord} :
    (key, records) ∈ g.fileImports ↔ ∃ n, (key, .file n) ∈ g.entries ∧ n.imports = records := by
  rw [fileImports, List.mem_filterMap]
  constructor
  · rintro ⟨⟨k, node⟩, stored, made⟩
    cases node with
    | file n =>
        simp only [fileImports?, Option.map_some, Option.some.injEq, Prod.mk.injEq] at made
        obtain ⟨rfl, rfl⟩ := made
        exact ⟨n, stored, rfl⟩
    | component n => simp [fileImports?] at made
    | utility n => simp [fileImports?] at made
    | module n => simp [fileImports?] at made
  · rintro ⟨n, stored, rfl⟩
    exact ⟨_, stored, rfl⟩

theorem keysOfKind_file (g : DependencyGraph) :
    g.keysOfKind .file = g.fileImports.map Prod.fst := by
  rw [keysOfKind, fileImports]
  induction g.entries with
  | nil => rfl
  | cons entry rest ih =>
      obtain ⟨key, node⟩ := entry
      cases node with
      | file n => exact congrArg (List.cons key) ih
      | component n => exact ih
      | utility n => exact ih
      | module n => exact ih

/-- Linking all files makes the links that their import records ask for at the start. -/
theorem Sound.linkAll_eq_ok {g : DependencyGraph} (sound : g.Sound) (scope : InternalScope) :
    linkAll scope g = .ok (g.applyAll (g.linkAdditions scope)) := by
  rw [linkAll, keysOfKind_file, List.foldlM_map, linkAdditions]
  -- What is carried along: every file still has the records that it had at the start.
  refine (foldlM_eq_ok_applyAll
    (fun current => ∀ file ∈ g.fileImports, current.importsOf file.1 = .ok file.2)
    (fun current same file listed => ?_) ?_).1
  · exact ⟨linkFile_eq_ok (same file listed),
      fun other other_listed => importsOf_applyAll_links (same other other_listed)⟩
  · rintro ⟨key, records⟩ listed
    obtain ⟨n, stored, imports⟩ := mem_fileImports_iff.mp listed
    exact importsOf_eq_ok_iff.mpr ⟨n, node?_of_mem_entries sound.keys_nodup stored, imports⟩

/-- What links add: a placeholder and an edge for every internal import of every file. -/
theorem Sound.mem_linkAdditions_iff {g : DependencyGraph} (sound : g.Sound)
    {scope : InternalScope} {a : Addition} :
    a ∈ g.linkAdditions scope ↔ ∃ key n, g.node? key = some (.file n) ∧
      ∃ r ∈ scope.internalRecords n.imports, a ∈ r.linkAdditions key := by
  rw [linkAdditions, List.mem_flatMap]
  constructor
  · rintro ⟨⟨key, records⟩, listed, made⟩
    obtain ⟨n, stored, rfl⟩ := mem_fileImports_iff.mp listed
    exact ⟨key, n, node?_of_mem_entries sound.keys_nodup stored, List.mem_flatMap.mp made⟩
  · rintro ⟨key, n, found, made⟩
    exact ⟨(key, n.imports), mem_fileImports_iff.mpr ⟨n, mem_entries_of_node? found, rfl⟩,
      List.mem_flatMap.mpr made⟩

theorem Sound.applyAll_linkAdditions {g : DependencyGraph} (sound : g.Sound)
    (scope : InternalScope) : (g.applyAll (g.linkAdditions scope)).Sound := by
  refine sound.applyAll fun a made => ?_
  obtain ⟨key, n, found, r, internal, added⟩ := sound.mem_linkAdditions_iff.mp made
  rcases ImportRecord.mem_linkAdditions_iff.mp added with rfl | rfl
  · rfl
  · have target : .node r.targetKey r.placeholder ∈ g.linkAdditions scope :=
      sound.mem_linkAdditions_iff.mpr
        ⟨key, n, found, r, internal, ImportRecord.mem_linkAdditions_iff.mpr (.inl rfl)⟩
    exact ⟨mem_keys_applyAll.mpr (.inl (mem_keys_iff.mpr ⟨_, found⟩)),
      mem_keys_applyAll.mpr (.inr ⟨_, target⟩)⟩

/-- **A build is a history that is known beforehand.** On a sound graph it makes exactly these
additions, and the graph is sound afterwards. -/
theorem Sound.build {g : DependencyGraph} (sound : g.Sound) (scope : InternalScope)
    (sources : List SourceFile) :
    g.build scope sources = .ok (g.applyAll (g.buildAdditions scope sources)) ∧
      (g.applyAll (g.buildAdditions scope sources)).Sound := by
  obtain ⟨added, addedSound⟩ := sound.addSources sources
  rw [DependencyGraph.build, added, buildAdditions, applyAll_append]
  exact ⟨addedSound.linkAll_eq_ok scope, addedSound.applyAll_linkAdditions scope⟩

end DependencyGraph

open DependencyGraph in
/-- **Building never fails.** Every list of source files has a graph: each file and each
declaration is in it, every node stands under its own key, and both ends of every edge are stored
nodes. -/
theorem buildGraph_isOk_and_sound (scope : InternalScope) (sources : List SourceFile) :
    ∃ g, buildGraph scope sources = .ok g ∧
      (∀ source ∈ sources, source.path ∈ g.keys ∧
        ∀ d ∈ source.declarations, d.uniqueId ∈ g.keys) ∧
      (∀ entry ∈ g.entries, entry.2.uniqueId = entry.1) ∧
      ∀ e ∈ g.arcs, e.source ∈ g.keys ∧ e.target ∈ g.keys := by
  obtain ⟨built, sound⟩ := sound_empty.build scope sources
  refine ⟨_, built, ?_, ?_, sound.ends_stored⟩
  · intro source given
    have made {a : Addition} (added : a ∈ source.additions) :
        a ∈ buildAdditions scope {} sources :=
      List.mem_append_left _ (List.mem_flatMap.mpr ⟨source, given, added⟩)
    refine ⟨mem_keys_applyAll.mpr (.inr ⟨_, made source.fileNode_mem_additions⟩), ?_⟩
    intro d declared
    exact mem_keys_applyAll.mpr (.inr ⟨d, made (SourceFile.declaration_mem_additions declared)⟩)
  · rintro ⟨key, n⟩ stored
    exact sound.keyed (node?_of_mem_entries sound.keys_nodup stored)

end SourceAtlas.Graph
