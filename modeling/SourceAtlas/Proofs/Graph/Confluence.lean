/-
# The order of the files does not matter

Files may come in any order and in any number of builds on one graph. Where no declaration of one
file has the key of another file or of a declaration there, the graph has the same keys, the same
nodes and the same edges in the end. Early builds leave placeholders for files that come later, and
these give way without losing the edges that lead to them.

One thing does depend on the order: a placeholder that remains bears the specifier of the record
that was linked to it first.
-/

import SourceAtlas.Proofs.Graph.Exactness

namespace SourceAtlas.Graph

/-- A node without the name of a placeholder. That name is the specifier of the import that came
first, the one thing of it that the order of the files can change. -/
def Node.withoutPlaceholderName : Node → Node
  | .module m => .module { m with name := "" }
  | n => n

/-- No declaration of one file has the key of a declaration of another. -/
def DeclareApart (sources : List SourceFile) : Prop :=
  ∀ s ∈ sources, ∀ t ∈ sources, s.path ≠ t.path → ∀ key, s.Declares key → ¬ t.Declares key

/-- What files put under a key does not depend on their order. -/
theorem settledAt_perm {sources others : List SourceFile} (same : others.Perm sources)
    (orderly : Orderly sources) (declareApart : DeclareApart sources) (key : String) :
    settledAt others key = settledAt sources key := by
  by_cases owned : ∃ s ∈ sources, s.path = key ∨ s.Declares key
  · obtain ⟨s, given, owns⟩ := owned
    -- Whoever else is there puts nothing under the key, so the owner alone counts in either order.
    have alone : ∀ t ∈ sources, t.path ≠ s.path → nodesAt key t.additions = [] := by
      intro t other away
      rw [SourceFile.nodesAt_additions_eq_nil_iff]
      rcases owns with rfl | declares
      · exact ⟨away, orderly.apart t other s given away⟩
      · refine ⟨?_, declareApart s given t other away.symm key declares⟩
        rintro rfl
        exact orderly.apart s given t other away.symm declares
    have first := flatMap_eq_of_owner orderly.paths_nodup given alone
    have second := flatMap_eq_of_owner (orderly.perm same).paths_nodup (same.mem_iff.mpr given)
      fun t other => alone t (same.mem_iff.mp other)
    rw [settledAt, settledAt, nodesAt_flatMap, nodesAt_flatMap, first, second]
  · have away : ∀ s ∈ sources, s.path ≠ key ∧ ¬ s.Declares key := fun s given =>
      ⟨fun here => owned ⟨s, given, .inl here⟩, fun declares => owned ⟨s, given, .inr declares⟩⟩
    rw [settledAt_eq_none_iff.mpr away, settledAt_eq_none_iff]
    exact fun s given => away s (same.mem_iff.mp given)

namespace DependencyGraph

variable {scope : InternalScope} {sources others : List SourceFile} {g h : DependencyGraph}

theorem Shows.keys_perm (shown : Shows scope sources g) (otherShown : Shows scope others h)
    (same : others.Perm sources) : h.keys.Perm g.keys := by
  rw [List.perm_ext_iff_of_nodup otherShown.sound.keys_nodup shown.sound.keys_nodup]
  intro key
  simp only [shown.mem_keys_iff, otherShown.mem_keys_iff, same.mem_iff]

theorem Shows.edge?_perm (shown : Shows scope sources g) (otherShown : Shows scope others h)
    (same : others.Perm sources) (start target : String) :
    h.edge? start target = g.edge? start target := by
  by_cases somewhere : ∃ s ∈ sources, s.path = start
  · obtain ⟨s, given, rfl⟩ := somewhere
    rw [shown.edge?_path s given, otherShown.edge?_path s (same.mem_iff.mpr given)]
  · push Not at somewhere
    rw [shown.edge?_eq_none somewhere,
      otherShown.edge?_eq_none fun s given => somewhere s (same.mem_iff.mp given)]

theorem Shows.arcs_perm (shown : Shows scope sources g) (otherShown : Shows scope others h)
    (same : others.Perm sources) : h.arcs.Perm g.arcs := by
  rw [List.perm_ext_iff_of_nodup otherShown.sound.ends_nodup.of_map shown.sound.ends_nodup.of_map]
  intro e
  rw [mem_arcs_iff_edge? otherShown.sound.ends_nodup, mem_arcs_iff_edge? shown.sound.ends_nodup,
    shown.edge?_perm otherShown same]

/-- Where files have put nothing, a node is a placeholder, and all but its name is known. -/
theorem Shows.placeholder_of_settledAt_eq_none (shown : Shows scope sources g) {key : String}
    (nothing : settledAt sources key = none) {n : Node} (found : g.node? key = some n) :
    ∃ m : ModuleNode, n = .module m ∧ m.path = key ∧ m.internal = true ∧
      (m.broken = true ↔ ∀ s ∈ sources, ∀ r ∈ s.recordsTo scope key, r.isBroken = true) := by
  have loose : n.isSolid = false := by
    have holds := shown.holds key
    rw [nothing, found, Option.filter_eq_none_iff] at holds
    simpa using holds n rfl
  obtain ⟨m, rfl⟩ := Node.isSolid_eq_false_iff.mp loose
  exact ⟨m, rfl, shown.sound.keyed found, shown.placeholder key m found⟩

theorem Shows.node?_perm (shown : Shows scope sources g) (otherShown : Shows scope others h)
    (same : others.Perm sources) (orderly : Orderly sources) (declareApart : DeclareApart sources)
    (key : String) :
    (h.node? key).map Node.withoutPlaceholderName =
      (g.node? key).map Node.withoutPlaceholderName := by
  have settled := settledAt_perm same orderly declareApart key
  have holds := shown.holds key
  have otherHolds := otherShown.holds key
  rw [settled] at otherHolds
  cases solid : settledAt sources key with
  | some n =>
      rw [solid, Option.filter_eq_some_iff] at holds otherHolds
      rw [holds.1, otherHolds.1]
  | none =>
      have keys := (shown.keys_perm otherShown same).mem_iff (a := key)
      cases found : g.node? key with
      | none =>
          rw [node?_eq_none_iff, ← keys, ← node?_eq_none_iff] at found
          rw [found]
      | some n =>
          obtain ⟨n', otherFound⟩ := DependencyGraph.mem_keys_iff.mp
            (keys.mpr (DependencyGraph.mem_keys_iff.mpr ⟨n, found⟩))
          obtain ⟨m, rfl, path, internal, broken⟩ :=
            shown.placeholder_of_settledAt_eq_none solid found
          obtain ⟨m', rfl, path', internal', broken'⟩ :=
            otherShown.placeholder_of_settledAt_eq_none (settled.trans solid) otherFound
          have agree : m'.broken = m.broken := by
            rw [Bool.eq_iff_iff, broken, broken']
            simp only [same.mem_iff]
          rw [otherFound]
          simp [Node.withoutPlaceholderName, path, path', internal, internal', agree]

/-- The records for which links are drawn in several builds, in the order in which they are. -/
def linkedRecords (scope : InternalScope) :
    DependencyGraph → List (List SourceFile) → Except BuildFault (List ImportRecord)
  | _, [] => .ok []
  | g, batch :: rest => do
    let added ← batch.foldlM addSource g
    let linked ← linkAll scope added
    let later ← linkedRecords scope linked rest
    return added.linkOrder scope ++ later

/-- Every placeholder bears the specifier of the first record that led to its key, and no record
led to a key that holds nothing. -/
structure NamedBy (records : List ImportRecord) (g : DependencyGraph) : Prop where
  first : ∀ key m, g.node? key = some (.module m) →
    ∃ r, records.find? (fun r => r.targetKey = key) = some r ∧ m.name = r.specifier
  unlinked : ∀ key, g.node? key = none → records.find? (fun r => r.targetKey = key) = none

theorem namedBy_empty : NamedBy [] {} where
  first key m found := by cases found
  unlinked _ _ := rfl

theorem NamedBy.addSources {records : List ImportRecord} {batch : List SourceFile}
    (named : NamedBy records g) (plain : DeclarePlain batch) :
    NamedBy records (g.withSources batch) where
  first key m found := by
    -- A file puts no placeholder anywhere, so one that is there now was there before.
    have loose := Node.filter_foldl_settle (g.node? key)
      (nodesAt key (batch.flatMap SourceFile.additions))
    rw [withSources, node?_applyAll] at found
    rw [found, List.filter_eq_self.mpr fun n => plain.isSolid] at loose
    have nothing := (foldl_settle_eq_none_iff.mp loose.symm).2
    rw [nothing] at found
    exact named.first key m found
  unlinked key absent := by
    rw [withSources, node?_applyAll, foldl_settle_eq_none_iff] at absent
    exact named.unlinked key absent.1

/-- A placeholder among the links of a graph bears the specifier of the first record that leads to
it, unless there was one under its key before, which keeps its name. -/
theorem NamedBy.addLinks {records : List ImportRecord} (named : NamedBy records g)
    (scope : InternalScope) :
    NamedBy (records ++ g.linkOrder scope) (g.applyAll (g.linkAdditions scope)) where
  first key m found := by
    have latest : (g.linkOrder scope).find? (fun r => r.targetKey = key) =
        ((g.linkOrder scope).filter (fun r => r.targetKey = key)).head? :=
      List.head?_filter.symm
    rw [node?_applyAll, nodesAt_linkAdditions] at found
    rw [List.find?_append, latest]
    generalize (g.linkOrder scope).filter (fun r => r.targetKey = key) = linked at found ⊢
    cases before : g.node? key with
    | none =>
        rw [before] at found
        rw [named.unlinked key before]
        cases linked with
        | nil => cases found
        | cons r rest =>
            rw [foldl_settle_placeholders] at found
            cases found
            exact ⟨r, rfl, rfl⟩
    | some old =>
        obtain ⟨placeholder, rfl⟩ : ∃ placeholder, old = .module placeholder := by
          rw [← Node.isSolid_eq_false_iff, ← Bool.not_eq_true]
          intro solid
          have stays := Node.filter_foldl_settle (g.node? key)
            (linked.map ImportRecord.placeholder)
          rw [found, before, Option.filter_some_pos solid] at stays
          have nonempty := (foldl_settle_eq_none_iff.mp stays.symm).1
          cases nonempty
        rw [before, foldl_settle_placeholders_of_module] at found
        cases found
        obtain ⟨r, earlier, name⟩ := named.first key placeholder before
        rw [earlier]
        exact ⟨r, rfl, name⟩
  unlinked key absent := by
    rw [node?_applyAll, nodesAt_linkAdditions, foldl_settle_eq_none_iff, List.map_eq_nil_iff,
      ← List.head?_eq_none_iff, List.head?_filter] at absent
    rw [List.find?_append, named.unlinked key absent.1, absent.2]
    rfl

theorem NamedBy.buildEach {records : List ImportRecord} (named : NamedBy records g)
    (sound : g.Sound) {batches : List (List SourceFile)}
    (plain : ∀ batch ∈ batches, DeclarePlain batch) :
    ∃ built later, g.buildEach scope batches = .ok built ∧
      linkedRecords scope g batches = .ok later ∧ NamedBy (records ++ later) built := by
  induction batches generalizing records g with
  | nil => exact ⟨g, [], rfl, rfl, by simpa using named⟩
  | cons batch rest ih =>
      obtain ⟨added, addedSound⟩ := sound.addSources batch
      have linked := addedSound.linkAll_eq_ok scope
      have next := (named.addSources (plain batch List.mem_cons_self)).addLinks scope
      obtain ⟨built, later, builtLater, recorded, namedLater⟩ :=
        ih next (addedSound.applyAll_linkAdditions scope) fun other listed =>
          plain other (List.mem_cons_of_mem _ listed)
      refine ⟨built, (g.withSources batch).linkOrder scope ++ later, ?_, ?_, ?_⟩
      · rw [DependencyGraph.buildEach, List.foldlM_cons, (sound.build scope batch).1,
          applyAll_buildAdditions]
        exact builtLater
      · rw [withSources] at recorded ⊢
        simp only [linkedRecords, added, linked, recorded, bind, Except.bind]
        rfl
      · rw [← List.append_assoc]
        exact namedLater

end DependencyGraph

open DependencyGraph

/-- **The order of the files does not matter.** Files have paths of their own, they declare
components and utilities, and none declares the key of another file or of a declaration there.
Whatever order they come in and however they are divided into builds on one graph, there are the
same keys, the same nodes up to the names of placeholders, and the same edges as after one build.
The name of a placeholder is the specifier that was linked to it first. -/
theorem buildEach_perm_buildGraph (scope : InternalScope) (sources : List SourceFile)
    (batches : List (List SourceFile)) (division : batches.flatten.Perm sources)
    (distinct : (sources.map SourceFile.path).Nodup)
    (plain : ∀ s ∈ sources, ∀ d ∈ s.declarations, d.kind = .component ∨ d.kind = .utility)
    (apart : ∀ s ∈ sources, ∀ t ∈ sources, s.path ≠ t.path → ∀ d ∈ s.declarations,
      d.uniqueId ≠ t.path ∧ ∀ other ∈ t.declarations, d.uniqueId ≠ other.uniqueId) :
    ∃ g h records, buildGraph scope sources = .ok g ∧
      DependencyGraph.buildEach scope {} batches = .ok h ∧
      linkedRecords scope {} batches = .ok records ∧
      h.keys.Perm g.keys ∧
      (∀ key, (h.node? key).map Node.withoutPlaceholderName =
        (g.node? key).map Node.withoutPlaceholderName) ∧
      h.arcs.Perm g.arcs ∧
      ∀ key m, h.node? key = some (.module m) →
        ∃ r, records.find? (fun r => r.targetKey = key) = some r ∧ m.name = r.specifier := by
  have orderly : Orderly sources := by
    refine ⟨distinct, plain, ?_⟩
    rintro s given t other away ⟨d, declared, same⟩
    exact (apart s given t other away d declared).1 same
  have declareApart : DeclareApart sources := by
    rintro s given t other away key ⟨d, declared, rfl⟩ ⟨d', declared', same⟩
    exact (apart s given t other away d declared).2 d' declared' same.symm
  have shown : Shows scope ([] ++ sources) _ := (shows_empty scope).build orderly
  obtain ⟨h, built, otherShown⟩ :=
    (shows_empty scope).buildEach (orderly.perm division)
  obtain ⟨h', records, built', recorded, named⟩ := namedBy_empty.buildEach sound_empty
    fun batch listed s given => orderly.plain s
      (division.mem_iff.mp (List.mem_flatten.mpr ⟨batch, listed, given⟩))
  cases built.symm.trans built'
  exact ⟨_, h, records, (sound_empty.build scope sources).1, built, recorded,
    shown.keys_perm otherShown division, shown.node?_perm otherShown division orderly declareApart,
    shown.arcs_perm otherShown division, named.first⟩

/-- The two files that import each other, the other way round and one by one. After the first build
the page is a placeholder. -/
theorem buildEach_perm_buildGraph_mutualFiles :
    ∃ g h records, buildGraph { root := "/app" } mutualFiles = .ok g ∧
      DependencyGraph.buildEach { root := "/app" } {} (mutualFiles.reverse.map ([·])) = .ok h ∧
      linkedRecords { root := "/app" } {} (mutualFiles.reverse.map ([·])) = .ok records ∧
      h.keys.Perm g.keys ∧
      (∀ key, (h.node? key).map Node.withoutPlaceholderName =
        (g.node? key).map Node.withoutPlaceholderName) ∧
      h.arcs.Perm g.arcs ∧
      ∀ key m, h.node? key = some (.module m) →
        ∃ r, records.find? (fun r => r.targetKey = key) = some r ∧ m.name = r.specifier :=
  buildEach_perm_buildGraph _ _ _ (List.Perm.swap ..) (by decide) (by decide) (by decide)

end SourceAtlas.Graph
