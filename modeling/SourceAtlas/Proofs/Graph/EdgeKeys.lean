/-
# Which edges share a key

The key of an edge is the text of its two ends with an arrow between them. Nothing keeps an arrow
out of a path or a specifier, so one text can be cut into two ends in more than one way: an edge
from `a` to `b->c` has the same key as an edge from `a->b` to `c`. This is the only way in which two
edges come to share a key, and a build can draw both of them.

All edges leave paths of files. So the keys tell all edges apart unless the path of a file goes on,
over an arrow, from the path of another one.
-/

import SourceAtlas.Proofs.Graph.Widening

namespace SourceAtlas.Graph

/-- The second edge leaves a key that goes on from where the first one starts, and the first leads
to what is left of that key and on to where the second leads. -/
def Edge.RunsInto (e f : Edge) : Prop :=
  ∃ middle, f.source = edgeKey e.source middle ∧ e.target = edgeKey middle f.target

theorem toList_edgeKey (source target : String) :
    (edgeKey source target).toList = source.toList ++ '-' :: '>' :: target.toList := by
  simp [edgeKey]

theorem edgeKey_assoc (source middle target : String) :
    edgeKey (edgeKey source middle) target = edgeKey source (edgeKey middle target) := by
  simp [← String.toList_inj, toList_edgeKey]

theorem edgeKey_ne_left (source middle : String) : edgeKey source middle ≠ source := by
  intro same
  have longer := congrArg (fun text => text.toList.length) same
  simp [toList_edgeKey] at longer

/-- What follows an arrow begins with another one, or the arrow is the same. -/
theorem arrow_eq_append_arrow {before rest tail : List Char}
    (same : '-' :: '>' :: rest = before ++ '-' :: '>' :: tail) :
    (before = [] ∧ rest = tail) ∨
      ∃ middle, before = '-' :: '>' :: middle ∧ rest = middle ++ '-' :: '>' :: tail := by
  rcases before with _ | ⟨first, _ | ⟨second, middle⟩⟩
  · simp only [List.nil_append, List.cons.injEq, true_and] at same
    exact .inl ⟨rfl, same⟩
  · -- One character is no arrow, and the two arrows cannot overlap in one.
    simp at same
  · simp only [List.cons_append, List.cons.injEq] at same
    obtain ⟨rfl, rfl, rfl⟩ := same
    exact .inr ⟨middle, rfl, rfl⟩

/-- A key that is cut at a later arrow has the rest of the text up to there in its start. -/
theorem exists_middle_of_longer {source target start finish : String} {more : List Char}
    (longer : start.toList = source.toList ++ more)
    (left : '-' :: '>' :: target.toList = more ++ '-' :: '>' :: finish.toList) :
    (source = start ∧ target = finish) ∨
      ∃ middle, start = edgeKey source middle ∧ target = edgeKey middle finish := by
  rcases arrow_eq_append_arrow left with ⟨rfl, same⟩ | ⟨middle, rfl, rest⟩
  · rw [List.append_nil] at longer
    exact .inl ⟨String.toList_inj.mp longer.symm, String.toList_inj.mp same⟩
  · refine .inr ⟨String.ofList middle, ?_, ?_⟩
    · rw [← String.toList_inj, toList_edgeKey, longer, String.toList_ofList]
    · rw [← String.toList_inj, toList_edgeKey, rest, String.toList_ofList]

/-- **Two cuts of one key.** Keys are equal if the ends are, or if one pair of ends is the other
with the text between two arrows moved from one end to the other. -/
theorem edgeKey_eq_edgeKey_iff {source target start finish : String} :
    edgeKey source target = edgeKey start finish ↔
      (source = start ∧ target = finish) ∨
      (∃ middle, start = edgeKey source middle ∧ target = edgeKey middle finish) ∨
      ∃ middle, source = edgeKey start middle ∧ finish = edgeKey middle target := by
  constructor
  · intro same
    rw [← String.toList_inj, toList_edgeKey, toList_edgeKey, List.append_eq_append_iff] at same
    rcases same with ⟨more, longer, left⟩ | ⟨more, longer, left⟩
    · exact (exists_middle_of_longer longer left).imp_right .inl
    · rcases exists_middle_of_longer longer left with ⟨rfl, rfl⟩ | moved
      · exact .inl ⟨rfl, rfl⟩
      · exact .inr (.inr moved)
  · rintro (⟨rfl, rfl⟩ | ⟨middle, rfl, rfl⟩ | ⟨middle, rfl, rfl⟩)
    · rfl
    · rw [edgeKey_assoc]
    · rw [edgeKey_assoc]

namespace Edge

theorem RunsInto.key_eq {e f : Edge} (runs : e.RunsInto f) : e.key = f.key := by
  obtain ⟨middle, start, finish⟩ := runs
  rw [key, key, start, finish, edgeKey_assoc]

theorem RunsInto.ends_ne {e f : Edge} (runs : e.RunsInto f) : e.ends ≠ f.ends := by
  obtain ⟨middle, start, -⟩ := runs
  intro same
  have source : e.source = f.source := congrArg Prod.fst same
  rw [start] at source
  exact edgeKey_ne_left e.source middle source.symm

theorem key_eq_key_iff {e f : Edge} (apart : e.ends ≠ f.ends) :
    e.key = f.key ↔ e.RunsInto f ∨ f.RunsInto e := by
  constructor
  · intro same
    rcases edgeKey_eq_edgeKey_iff.mp same with ⟨source, target⟩ | moved
    · exact absurd (Prod.ext source target) apart
    · exact moved
  · rintro (runs | runs)
    · exact runs.key_eq
    · exact runs.key_eq.symm

end Edge

namespace DependencyGraph

theorem Sound.nodup_ends_edges {g : DependencyGraph} (sound : g.Sound) :
    (g.edges.map Edge.ends).Nodup :=
  ((edges_perm_arcs sound.keys_nodup sound.ends_nodup sound.ends_stored).map _).nodup_iff.mpr
    sound.ends_nodup

/-- Keys repeat exactly where one edge runs into another. -/
theorem Sound.nodup_edgeKeys_iff {g : DependencyGraph} (sound : g.Sound) :
    g.edgeKeys.Nodup ↔ ∀ e ∈ g.edges, ∀ f ∈ g.edges, ¬ e.RunsInto f := by
  have pairs := sound.nodup_ends_edges
  rw [edgeKeys, List.nodup_map_iff_inj_on (List.Nodup.of_map _ pairs)]
  constructor
  · intro injective e listed f alsoListed runs
    exact runs.ends_ne (congrArg Edge.ends (injective e listed f alsoListed runs.key_eq))
  · intro apart e listed f alsoListed same
    by_contra different
    have ends : e.ends ≠ f.ends := fun same =>
      different (List.inj_on_of_nodup_map pairs listed alsoListed same)
    rcases (Edge.key_eq_key_iff ends).mp same with runs | runs
    · exact apart e listed f alsoListed runs
    · exact apart f alsoListed e listed runs

/-- A build draws an edge where a file declares something, and where a file has an internal
record. Nothing is assumed of the files. -/
theorem hasEdge_build_iff (scope : InternalScope) (sources : List SourceFile)
    (source target : String) :
    (applyAll {} (buildAdditions scope {} sources)).hasEdge source target = true ↔
      DeclaredAnew sources source target ∨
        (applyAll {} (buildAdditions scope {} sources)).HasRecord scope source target := by
  have added : (withSources {} sources).Sound := (sound_empty.addSources sources).2
  have nothing : hasEdge {} source target = false := rfl
  rw [hasRecord_applyAll_buildAdditions, ← Bool.not_eq_false, hasEdge_applyAll_eq_false_iff,
    buildAdditions, edgesBetween_append, List.append_eq_nil_iff, edgesBetween_sources_eq_nil_iff,
    ← withSources, added.edgesBetween_linkAdditions_eq_nil_iff]
  tauto

end DependencyGraph

/-- The path of a file, of one that is given or of one that is declared. -/
def IsFilePath (sources : List SourceFile) (key : String) : Prop :=
  ∃ s ∈ sources, s.path = key ∨ ∃ n : FileNode, .file n ∈ s.declarations ∧ n.path = key

/-- Whatever an edge of a build leaves is the path of a file. -/
theorem isFilePath_of_hasEdge {scope : InternalScope} {sources : List SourceFile}
    {source target : String}
    (drawn : (DependencyGraph.applyAll {} (DependencyGraph.buildAdditions scope {} sources)).hasEdge
      source target = true) : IsFilePath sources source := by
  rcases (DependencyGraph.hasEdge_build_iff scope sources source target).mp drawn with
    ⟨s, given, here, -⟩ | asked
  · exact ⟨s, given, .inl here⟩
  · obtain ⟨n, found, -⟩ :=
      (DependencyGraph.hasRecord_applyAll_buildAdditions scope {} sources source target).mp asked
    rw [DependencyGraph.withSources, DependencyGraph.node?_applyAll] at found
    -- A file stands there, so a file was put there: a source file, or one that is declared.
    rcases Node.exists_mem_kind_eq_of_foldl_settle found with ⟨old, before, -⟩ | ⟨m, put, file⟩
    · cases before
    · obtain ⟨s, given, ⟨here, -⟩ | ⟨declared, here⟩⟩ := mem_nodesAt_sources.mp put
      · exact ⟨s, given, .inl here⟩
      · cases m with
        | file n => exact ⟨s, given, .inr ⟨n, declared, here⟩⟩
        | component n => cases file
        | utility n => cases file
        | module n => cases file

open DependencyGraph in
/-- **Edges share a key only where their ends overlap.** In the graph of any source files no pair of
ends occurs twice, and two edges have one key exactly if they have the same ends or one runs into
the other. So the keys tell all edges apart exactly if no edge runs into another. This is so
whenever no path of a file goes on from another one over an arrow. -/
theorem nodup_edgeKeys_buildGraph (scope : InternalScope) (sources : List SourceFile) :
    ∃ g, buildGraph scope sources = .ok g ∧ (g.edges.map Edge.ends).Nodup ∧
      (∀ e ∈ g.edges, ∀ f ∈ g.edges,
        e.key = f.key ↔ e.ends = f.ends ∨ e.RunsInto f ∨ f.RunsInto e) ∧
      (g.edgeKeys.Nodup ↔ ∀ e ∈ g.edges, ∀ f ∈ g.edges, ¬ e.RunsInto f) ∧
      ((∀ first second middle, IsFilePath sources first → IsFilePath sources second →
        second ≠ edgeKey first middle) → g.edgeKeys.Nodup) := by
  obtain ⟨built, sound⟩ := sound_empty.build scope sources
  refine ⟨_, built, sound.nodup_ends_edges, ?_, sound.nodup_edgeKeys_iff, ?_⟩
  · intro e _ f _
    by_cases same : e.ends = f.ends
    · have source : e.source = f.source := congrArg Prod.fst same
      have target : e.target = f.target := congrArg Prod.snd same
      simp [Edge.key, source, target, same]
    · rw [Edge.key_eq_key_iff same, or_iff_right same]
  · intro apart
    rw [sound.nodup_edgeKeys_iff]
    rintro e listed f alsoListed ⟨middle, start, -⟩
    have path {e : Edge} (listed : e ∈ (applyAll {} (buildAdditions scope {} sources)).edges) :
        IsFilePath sources e.source := by
      have stored := (mem_edges_iff sound.ends_stored).mp listed
      exact isFilePath_of_hasEdge (hasEdge_eq_true_iff.mpr (List.mem_map.mpr ⟨e, stored, rfl⟩))
    exact apart e.source f.source middle (path listed) (path alsoListed) start

/-- Two files, the second of them in a directory whose name goes on from the first. Neither of them
finds what it imports. -/
def arrowFiles : List SourceFile :=
  [ { path := "/app/a.ts", imports := [{ specifier := "./b.ts->./c", line := 1 }] },
    { path := "/app/a.ts->./b.ts", imports := [{ specifier := "./c", line := 1 }] } ]

open DependencyGraph in
/-- Two edges with different ends share a key. -/
theorem edgeKeys_arrowFiles :
    ∃ g, buildGraph { root := "/app" } arrowFiles = .ok g ∧
      g.edges.map Edge.ends =
        [("/app/a.ts", "./b.ts->./c"), ("/app/a.ts->./b.ts", "./c")] ∧
      g.edgeKeys = ["/app/a.ts->./b.ts->./c", "/app/a.ts->./b.ts->./c"] ∧ ¬ g.edgeKeys.Nodup := by
  have evaluated : (buildGraph { root := "/app" } arrowFiles).toOption.map
      (fun g => (g.edges.map Edge.ends, g.edgeKeys)) =
        some ([("/app/a.ts", "./b.ts->./c"), ("/app/a.ts->./b.ts", "./c")],
          ["/app/a.ts->./b.ts->./c", "/app/a.ts->./b.ts->./c"]) := by
    decide +kernel
  obtain ⟨g, built, facts⟩ := Option.map_eq_some_iff.mp evaluated
  obtain ⟨ends, keys⟩ := Prod.mk.inj facts
  refine ⟨g, eq_ok_of_toOption built, ends, keys, ?_⟩
  rw [keys]
  decide

end SourceAtlas.Graph
