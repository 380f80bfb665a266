/-
# Links of files that are built again

A file may be given to several builds, each time with other contents. Its node always has the latest
imports, but edges are only ever added: a link to what an earlier version imported stays. So the
imports that leave a file are not those of its current records alone. They are the links that its
records asked for after some build, less those that a later build drew anew because a file with the
same path declares something under the same key.

The step lemma says what one build does to the kind of an edge, and the theorem follows it through
any list of builds.
-/

import Mathlib.Data.List.Induction
import SourceAtlas.Proofs.Graph.Rebuilding
import SourceAtlas.Proofs.Graph.Requests

namespace SourceAtlas.Graph

namespace DependencyGraph

/-- An import is drawn from one key to another. -/
def HasImport (g : DependencyGraph) (source target : String) : Prop :=
  ∃ e ∈ g.edges, e.ends = (source, target) ∧ e.kind = .imports

/-- A file stands under a key, and one of its internal records leads to another key. -/
def HasRecord (scope : InternalScope) (g : DependencyGraph) (source target : String) : Prop :=
  ∃ n, g.node? source = some (.file n) ∧
    ∃ r ∈ scope.internalRecords n.imports, r.targetKey = target

end DependencyGraph

/-- Some file of a batch with the given path declares something under a key. -/
def DeclaredAnew (batch : List SourceFile) (source target : String) : Prop :=
  ∃ s ∈ batch, s.path = source ∧ s.Declares target

/-- Edges of one kind that are drawn over each other leave that kind. -/
theorem Edge.kind_foldl_settle {kind : EdgeKind} {edges : List Edge}
    (all : ∀ e ∈ edges, e.kind = kind) (start : Option Edge) :
    (edges.foldl Edge.settle start).map Edge.kind =
      if edges = [] then start.map Edge.kind else some kind := by
  induction edges generalizing start with
  | nil => rfl
  | cons first rest ih =>
      have drawn : (Edge.settle start first).map Edge.kind = some kind := by
        rw [← all first List.mem_cons_self]
        cases start <;> rfl
      rw [List.foldl_cons, ih fun e later => all e (List.mem_cons_of_mem _ later), drawn, ite_self,
        if_neg (List.cons_ne_nil _ _)]

namespace DependencyGraph

theorem edgesBetween_sources_eq_nil_iff {batch : List SourceFile} {source target : String} :
    edgesBetween source target (batch.flatMap SourceFile.additions) = [] ↔
      ¬ DeclaredAnew batch source target := by
  rw [edgesBetween_flatMap, List.flatMap_eq_nil_iff, DeclaredAnew]
  push Not
  refine forall₂_congr fun s _ => ?_
  rw [SourceFile.edgesBetween_additions, SourceFile.Declares]
  by_cases here : s.path = source
  · simp [here]
  · simp [here]

theorem kind_of_mem_edgesBetween_sources {batch : List SourceFile} {source target : String}
    {e : Edge} (drawn : e ∈ edgesBetween source target (batch.flatMap SourceFile.additions)) :
    e.kind = .contains := by
  obtain ⟨s, -, made⟩ := List.mem_flatMap.mp (mem_edgesBetween.mp drawn).1
  rcases SourceFile.mem_additions_iff.mp made with node | ⟨d, -, node | edge⟩
  · cases node
  · cases node
  · cases edge
    rfl

section Links

variable {g : DependencyGraph} (sound : g.Sound)
include sound

theorem Sound.edgesBetween_linkAdditions_eq_nil_iff {scope : InternalScope}
    {source target : String} :
    edgesBetween source target (g.linkAdditions scope) = [] ↔
      ¬ g.HasRecord scope source target := by
  constructor
  · rintro nothing ⟨n, found, r, internal, leads⟩
    rw [sound.edgesBetween_linkAdditions scope found, List.map_eq_nil_iff,
      List.filter_eq_nil_iff] at nothing
    exact nothing r internal (decide_eq_true leads)
  · intro unasked
    rw [List.eq_nil_iff_forall_not_mem]
    intro e drawn
    obtain ⟨n, found⟩ := sound.file_of_mem_edgesBetween_linkAdditions drawn
    rw [sound.edgesBetween_linkAdditions scope found] at drawn
    obtain ⟨r, leads, -⟩ := List.mem_map.mp drawn
    obtain ⟨internal, there⟩ := List.mem_filter.mp leads
    exact unasked ⟨n, found, r, internal, of_decide_eq_true there⟩

theorem Sound.kind_of_mem_edgesBetween_linkAdditions {scope : InternalScope}
    {source target : String} {e : Edge}
    (drawn : e ∈ edgesBetween source target (g.linkAdditions scope)) : e.kind = .imports := by
  obtain ⟨key, n, -, r, -, made⟩ :=
    sound.mem_linkAdditions_iff.mp (mem_edgesBetween.mp drawn).1
  rcases ImportRecord.mem_linkAdditions_iff.mp made with node | edge
  · cases node
  · cases edge
    rfl

theorem Sound.hasImport_iff {source target : String} :
    g.HasImport source target ↔ (g.edge? source target).map Edge.kind = some .imports := by
  constructor
  · rintro ⟨e, listed, ends, kind⟩
    have found := edge?_of_mem_arcs sound.ends_nodup ((mem_edges_iff sound.ends_stored).mp listed)
    cases ends
    rw [found, Option.map_some, kind]
  · intro drawn
    obtain ⟨e, found, kind⟩ := Option.map_eq_some_iff.mp drawn
    have joined : e.joins source target = true := List.find?_some found
    exact ⟨e, (mem_edges_iff sound.ends_stored).mpr (List.mem_of_find?_eq_some found),
      Edge.joins_eq_true_iff.mp joined, kind⟩

end Links

/-- Links are placeholders and edges, so they leave the records of every file as they are. -/
theorem hasRecord_applyAll_linkAdditions (scope : InternalScope) (g : DependencyGraph)
    (source target : String) :
    HasRecord scope (g.applyAll (g.linkAdditions scope)) source target ↔
      g.HasRecord scope source target := by
  have same := filter_isSolid_node?_applyAll_linkAdditions scope g g source
  have file (h : DependencyGraph) (n : FileNode) :
      h.node? source = some (.file n) ↔
        (h.node? source).filter Node.isSolid = some (.file n) := by
    rw [Option.filter_eq_some_iff]
    exact ⟨fun found => ⟨found, rfl⟩, And.left⟩
  simp only [HasRecord, file, same]

/-- The records that files have after a build are those that they have once all are added. -/
theorem hasRecord_applyAll_buildAdditions (scope : InternalScope) (g : DependencyGraph)
    (batch : List SourceFile) (source target : String) :
    (g.applyAll (g.buildAdditions scope batch)).HasRecord scope source target ↔
      (g.withSources batch).HasRecord scope source target := by
  rw [applyAll_buildAdditions]
  exact hasRecord_applyAll_linkAdditions scope _ source target

/-- **What a build does to imports.** After a build, an import is drawn where the current records
ask for it, and where it was drawn before unless a file of the build declares its end anew. -/
theorem Sound.hasImport_build {g : DependencyGraph} (sound : g.Sound) (scope : InternalScope)
    (batch : List SourceFile) (source target : String) :
    (g.applyAll (g.buildAdditions scope batch)).HasImport source target ↔
      (g.applyAll (g.buildAdditions scope batch)).HasRecord scope source target ∨
        (g.HasImport source target ∧ ¬ DeclaredAnew batch source target) := by
  have withSources_sound : (g.withSources batch).Sound := (sound.addSources batch).2
  -- The containments of the batch come first, and the links are drawn over them.
  have kind : ((g.applyAll (g.buildAdditions scope batch)).edge? source target).map Edge.kind =
      if edgesBetween source target ((g.withSources batch).linkAdditions scope) = [] then
        if edgesBetween source target (batch.flatMap SourceFile.additions) = [] then
          (g.edge? source target).map Edge.kind
        else some .contains
      else some .imports := by
    rw [applyAll_buildAdditions, edge?_applyAll,
      Edge.kind_foldl_settle fun e =>
        withSources_sound.kind_of_mem_edgesBetween_linkAdditions,
      withSources, edge?_applyAll,
      Edge.kind_foldl_settle fun e => kind_of_mem_edgesBetween_sources]
  rw [(sound.build scope batch).2.hasImport_iff, kind, sound.hasImport_iff,
    hasRecord_applyAll_buildAdditions]
  by_cases asked : (g.withSources batch).HasRecord scope source target
  · have drawn : edgesBetween source target ((g.withSources batch).linkAdditions scope) ≠ [] := by
      rw [ne_eq, withSources_sound.edgesBetween_linkAdditions_eq_nil_iff, not_not]
      exact asked
    simp [drawn, asked]
  · rw [if_pos (withSources_sound.edgesBetween_linkAdditions_eq_nil_iff.mpr asked)]
    by_cases anew : DeclaredAnew batch source target
    · have drawn : edgesBetween source target (batch.flatMap SourceFile.additions) ≠ [] := by
        rw [ne_eq, edgesBetween_sources_eq_nil_iff, not_not]
        exact anew
      simp [drawn, asked, anew]
    · rw [if_pos (edgesBetween_sources_eq_nil_iff.mpr anew)]
      simp [asked, anew]

theorem buildEach_concat (scope : InternalScope) (g : DependencyGraph)
    (batches : List (List SourceFile)) (batch : List SourceFile) :
    g.buildEach scope (batches ++ [batch]) =
      (g.buildEach scope batches >>= (build scope · batch)) := by
  simp only [buildEach, List.foldlM_append, List.foldlM_cons, List.foldlM_nil, bind_pure]

theorem hasImport_empty (source target : String) : ¬ HasImport {} source target := by
  rintro ⟨e, listed, -⟩
  cases listed

theorem hasRecord_empty (scope : InternalScope) (source target : String) :
    ¬ HasRecord scope {} source target := by
  rintro ⟨n, found, -⟩
  cases found

end DependencyGraph

open DependencyGraph in
/-- **Links accumulate.** After any list of builds, an import leads from one key to another exactly
if the file under the first had a record for it after one of the builds, and no later build draws
the edge anew as a containment. The records that the file has now are the case of no later build:
they are all linked. -/
theorem hasImport_buildEach_iff (scope : InternalScope) (batches : List (List SourceFile)) :
    ∃ g, buildEach scope {} batches = .ok g ∧ ∀ source target,
      g.HasImport source target ↔ ∃ earlier later, earlier ++ later = batches ∧
        (∃ h, buildEach scope {} earlier = .ok h ∧ h.HasRecord scope source target) ∧
          ∀ batch ∈ later, ¬ DeclaredAnew batch source target := by
  suffices ∃ g, buildEach scope {} batches = .ok g ∧ g.Sound ∧ ∀ source target,
      g.HasImport source target ↔ ∃ earlier later, earlier ++ later = batches ∧
        (∃ h, buildEach scope {} earlier = .ok h ∧ h.HasRecord scope source target) ∧
          ∀ batch ∈ later, ¬ DeclaredAnew batch source target by
    obtain ⟨g, built, -, imports⟩ := this
    exact ⟨g, built, imports⟩
  induction batches using List.reverseRecOn with
  | nil =>
      refine ⟨{}, rfl, sound_empty, fun source target => ?_⟩
      refine ⟨fun drawn => absurd drawn (hasImport_empty source target), ?_⟩
      rintro ⟨earlier, later, none, ⟨h, built, asked⟩, -⟩
      rw [(List.append_eq_nil_iff.mp none).1] at built
      cases built
      exact absurd asked (hasRecord_empty scope source target)
  | append_singleton batches batch ih =>
      obtain ⟨g, built, sound, imports⟩ := ih
      obtain ⟨step, still⟩ := sound.build scope batch
      have both : buildEach scope {} (batches ++ [batch]) =
          .ok (g.applyAll (g.buildAdditions scope batch)) := by
        rw [buildEach_concat, built]
        exact step
      refine ⟨_, both, still, fun source target => ?_⟩
      rw [sound.hasImport_build, imports]
      constructor
      · rintro (asked | ⟨⟨earlier, later, parts, asked, kept⟩, still⟩)
        · refine ⟨batches ++ [batch], [], List.append_nil _, ⟨_, both, asked⟩, ?_⟩
          intro other none
          cases none
        · refine ⟨earlier, later ++ [batch], ?_, asked, ?_⟩
          · rw [← List.append_assoc, parts]
          · intro other listed
            rcases List.mem_append.mp listed with before | last
            · exact kept other before
            · rw [List.mem_singleton.mp last]
              exact still
      · rintro ⟨earlier, later, parts, ⟨h, early, asked⟩, kept⟩
        rcases List.eq_nil_or_concat' later with rfl | ⟨rest, last, rfl⟩
        · rw [List.append_nil] at parts
          rw [parts, both] at early
          cases early
          exact .inl asked
        · rw [← List.append_assoc] at parts
          obtain ⟨before, same⟩ := List.append_inj' parts rfl
          cases same
          refine .inr ⟨⟨earlier, rest, before, ⟨h, early, asked⟩, ?_⟩, ?_⟩
          · exact fun other listed => kept other (List.mem_append_left _ listed)
          · exact kept batch (List.mem_append_right _ (List.mem_singleton_self _))

theorem eq_ok_of_toOption {ε α : Type} {x : Except ε α} {a : α} (found : x.toOption = some a) :
    x = .ok a := by
  cases x with
  | error fault => cases found
  | ok b =>
      cases found
      rfl

open DependencyGraph in
/-- A file that is built again without its import keeps the link. -/
theorem hasImport_of_earlier_version :
    ∃ g n,
      buildEach { root := "/p" } {}
        [[{ path := "/p/f.ts"
            imports := [{ specifier := "./a", resolvedPath := some "/p/a.ts" }] }],
          [{ path := "/p/f.ts" }]] = .ok g ∧
        g.node? "/p/f.ts" = some (.file n) ∧ n.imports = [] ∧
        g.HasImport "/p/f.ts" "/p/a.ts" ∧
        ¬ g.HasRecord { root := "/p" } "/p/f.ts" "/p/a.ts" := by
  have evaluated :
      (buildEach { root := "/p" } {}
        [[{ path := "/p/f.ts"
            imports := [{ specifier := "./a", resolvedPath := some "/p/a.ts" }] }],
          [{ path := "/p/f.ts" }]]).toOption.map (fun g =>
        (g.edges.map fun e => (e.ends, e.kind), (g.importsOf "/p/f.ts").toOption.map List.length)) =
      some ([(("/p/f.ts", "/p/a.ts"), .imports)], some 0) := by decide +kernel
  obtain ⟨g, built, facts⟩ := Option.map_eq_some_iff.mp evaluated
  obtain ⟨edges, records⟩ := Prod.mk.inj facts
  obtain ⟨imports, current, none⟩ := Option.map_eq_some_iff.mp records
  obtain ⟨n, found, same⟩ := importsOf_eq_ok_iff.mp (eq_ok_of_toOption current)
  have empty : n.imports = [] := by rw [same, List.eq_nil_of_length_eq_zero none]
  refine ⟨g, n, eq_ok_of_toOption built, found, empty, ?_, ?_⟩
  · have listed : (("/p/f.ts", "/p/a.ts"), EdgeKind.imports) ∈
        g.edges.map fun e => (e.ends, e.kind) := by
      rw [edges]
      exact List.mem_singleton_self _
    obtain ⟨e, stored, shape⟩ := List.mem_map.mp listed
    exact ⟨e, stored, Prod.mk.inj shape⟩
  · rintro ⟨m, again, r, internal, -⟩
    cases found.symm.trans again
    rw [empty] at internal
    cases internal

end SourceAtlas.Graph
