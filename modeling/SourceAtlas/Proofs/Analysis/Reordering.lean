/-
# Scores do not depend on the order of the files

When source files come in another order, the nodes, the edges and the columns of signals do too, and
placeholders may bear other names. None of this reaches a score. Neighbours are counted, whatever
their order; medians are taken of whole numbers, whatever theirs; and the score of a file is then
computed from its own signals and the medians alone.

Sums and quotients may have no result, when a number is too large. That a file has none does not
depend on the order either, so either both analyses come to an end or neither does.
-/

import SourceAtlas.Proofs.Analysis.Medians
import SourceAtlas.Proofs.Analysis.Signals

namespace SourceAtlas.Analysis

open Arithmetic SourceAtlas.Graph DependencyGraph

theorem isDeclaration_withoutPlaceholderName (n : Node) :
    isDeclaration n.withoutPlaceholderName = isDeclaration n := by
  cases n <;> rfl

theorem any_isDeclaration_congr {n m : Option Node}
    (same : m.map Node.withoutPlaceholderName = n.map Node.withoutPlaceholderName) :
    m.any isDeclaration = n.any isDeclaration := by
  have blind (node : Option Node) :
      (node.map Node.withoutPlaceholderName).any isDeclaration = node.any isDeclaration := by
    cases node with
    | none => rfl
    | some n => exact isDeclaration_withoutPlaceholderName n
  rw [← blind m, same, blind n]

theorem eq_file_of_map_eq {m : Option Node} {n : FileNode}
    (same : m.map Node.withoutPlaceholderName = some (.file n)) : m = some (.file n) := by
  obtain ⟨node, rfl, stripped⟩ := Option.map_eq_some_iff.mp same
  cases node with
  | file f => exact congrArg some stripped
  | component c => cases stripped
  | utility u => cases stripped
  | module m => cases stripped

theorem adjacent_perm {g h : DependencyGraph} (arcs : h.arcs.Perm g.arcs) {key : String}
    (stored : key ∈ g.keys) (alsoStored : key ∈ h.keys) :
    (adjacent h key).Perm (adjacent g key) := by
  have targets : (h.targets key).Perm (g.targets key) := (arcs.filter _).map _
  have origins : (h.origins key).Perm (g.origins key) := (arcs.filter _).map _
  rw [adjacent_eq stored, adjacent_eq alsoStored]
  refine targets.append ?_
  have sameTest : (fun k => !(h.targets key).contains k) =
      fun k => !(g.targets key).contains k := by
    funext k
    rw [targets.contains_eq]
  rw [sameTest]
  exact origins.filter _

section Shown

variable {scope : InternalScope} {sources others : List SourceFile} {g h : DependencyGraph}

/-- Files that come in another order have the same signals. -/
theorem signals_perm (shown : Shows scope sources g) (otherShown : Shows scope others h)
    (same : others.Perm sources) (orderly : Orderly sources) (declareApart : DeclareApart sources) :
    (signals h).Perm (signals g) := by
  have nodes := shown.node?_perm otherShown same orderly declareApart
  have keys := shown.keys_perm otherShown same
  have count {key : String} {n : Node} (found : g.node? key = some n) :
      declarationCount h key = declarationCount g key := by
    have stored : key ∈ g.keys := DependencyGraph.mem_keys_iff.mpr ⟨n, found⟩
    have neighbours := adjacent_perm (shown.arcs_perm otherShown same) stored
      (keys.mem_iff.mpr stored)
    have sameTest : (fun k => (h.node? k).any isDeclaration) =
        fun k => (g.node? k).any isDeclaration :=
      funext fun k => any_isDeclaration_congr (nodes k)
    rw [declarationCount, declarationCount, sameTest]
    exact neighbours.countP_eq _
  have distinct := shown.sound.keys_nodup
  have alsoDistinct := otherShown.sound.keys_nodup
  rw [List.perm_ext_iff_of_nodup (nodup_signals_keys alsoDistinct).of_map
    (nodup_signals_keys distinct).of_map]
  rintro ⟨key, measured⟩
  rw [mem_signals_iff alsoDistinct, mem_signals_iff distinct]
  constructor
  · rintro ⟨n, found, rfl⟩
    have alsoFound : g.node? key = some (.file n) := by
      apply eq_file_of_map_eq
      rw [← nodes, found]
      rfl
    exact ⟨n, alsoFound, by rw [nodeSignals, nodeSignals, count alsoFound]⟩
  · rintro ⟨n, found, rfl⟩
    have alsoFound : h.node? key = some (.file n) := by
      apply eq_file_of_map_eq
      rw [nodes, found]
      rfl
    exact ⟨n, alsoFound, by rw [nodeSignals, nodeSignals, count found]⟩

/-- Exactly the source files are measured. -/
theorem signals_keys_perm (shown : Shows scope sources g) (orderly : Orderly sources) :
    ((signals g).map Prod.fst).Perm (sources.map SourceFile.path) := by
  have distinct := shown.sound.keys_nodup
  rw [List.perm_ext_iff_of_nodup (nodup_signals_keys distinct) orderly.paths_nodup]
  intro key
  rw [List.mem_map, List.mem_map]
  constructor
  · rintro ⟨⟨k, measured⟩, listed, rfl⟩
    obtain ⟨n, found, -⟩ := (mem_signals_iff distinct).mp listed
    obtain ⟨s, given, here, -⟩ := shown.holds.path_of_file orderly found
    exact ⟨s, given, here⟩
  · rintro ⟨s, given, rfl⟩
    have found := shown.holds.node?_path orderly given
    exact ⟨_, (mem_signals_iff distinct).mpr ⟨_, found, rfl⟩, rfl⟩

end Shown

theorem mapM_cons_eq_ok_iff {ε β γ : Type} {f : β → Except ε γ} {item : β} {rest : List β}
    {results : List γ} :
    (item :: rest).mapM f = .ok results ↔
      ∃ first later, f item = .ok first ∧ rest.mapM f = .ok later ∧ first :: later = results := by
  rw [List.mapM_cons]
  cases f item with
  | error fault => simp [bind, Except.bind]
  | ok first =>
      cases rest.mapM f with
      | error fault => simp [bind, Except.bind]
      | ok later => simp [bind, Except.bind, pure, Except.pure]

/-- What succeeds for each item of a list succeeds for them in any order, with the same results. -/
theorem exists_mapM_perm {ε β γ : Type} {f : β → Except ε γ} {items others : List β}
    (same : others.Perm items) {results : List γ} (done : items.mapM f = .ok results) :
    ∃ otherResults, others.mapM f = .ok otherResults ∧ otherResults.Perm results := by
  induction same generalizing results with
  | nil => exact ⟨results, done, .refl _⟩
  | cons item _ ih =>
      obtain ⟨first, later, given, rest, rfl⟩ := mapM_cons_eq_ok_iff.mp done
      obtain ⟨otherLater, otherRest, perm⟩ := ih rest
      exact ⟨first :: otherLater,
        mapM_cons_eq_ok_iff.mpr ⟨first, otherLater, given, otherRest, rfl⟩, perm.cons first⟩
  | swap one two _ =>
      obtain ⟨first, later, given, rest, rfl⟩ := mapM_cons_eq_ok_iff.mp done
      obtain ⟨second, latest, alsoGiven, last, rfl⟩ := mapM_cons_eq_ok_iff.mp rest
      refine ⟨second :: first :: latest, mapM_cons_eq_ok_iff.mpr ⟨second, _, alsoGiven, ?_, rfl⟩,
        .swap ..⟩
      exact mapM_cons_eq_ok_iff.mpr ⟨first, latest, given, last, rfl⟩
  | trans _ _ ihFirst ihSecond =>
      obtain ⟨middle, middleDone, middlePerm⟩ := ihSecond done
      obtain ⟨otherResults, otherDone, otherPerm⟩ := ihFirst middleDone
      exact ⟨otherResults, otherDone, otherPerm.trans middlePerm⟩

section Scores

variable {α : Type} [Arithmetic α] (compares : ComparesIntegers α)

theorem keys_scoreFiles {weights : Weights α} {measured : List (String × Signals)}
    {scores : List (String × (α × α))} (done : scoreFiles weights measured = .ok scores) :
    scores.map Prod.fst = measured.map Prod.fst := by
  rw [scoreFiles] at done
  cases found : (signalMedians (measured.map Prod.snd) : Except ScoreFault (List α)) with
  | error fault =>
      rw [found] at done
      cases done
  | ok medians =>
      rw [found] at done
      change measured.mapM _ = _ at done
      clear found
      induction measured generalizing scores with
      | nil =>
          cases done
          rfl
      | cons m rest ih =>
          obtain ⟨first, later, given, restDone, rfl⟩ := mapM_cons_eq_ok_iff.mp done
          rw [List.map_cons, List.map_cons, ih restDone]
          congr 1
          cases pair : scorePair weights medians m.2 with
          | error fault =>
              rw [pair] at given
              cases given
          | ok scored =>
              rw [pair] at given
              cases given
              rfl

include compares

/-- The medians do not depend on the order of the files. -/
theorem signalMedians_perm {all others : List Signals} (same : others.Perm all) :
    (signalMedians others : Except ScoreFault (List α)) = signalMedians all := by
  have column (signal : Signals → Int) :
      median (others.map fun s => (ofInt (signal s) : α)) =
        median (all.map fun s => ofInt (signal s)) := by
    have values := median_map_ofInt_perm compares (same.map signal)
    rwa [List.map_map, List.map_map] at values
  rw [signalMedians, signalMedians, column Signals.lines, column fun s => (s.declarations : Int),
    column fun s => (s.dependencies : Int)]

/-- Files measured in another order get the same scores, if all of them get one. -/
theorem exists_scoreFiles_perm {weights : Weights α} {measured others : List (String × Signals)}
    (same : others.Perm measured) {scores : List (String × (α × α))}
    (done : scoreFiles weights measured = .ok scores) :
    ∃ otherScores, scoreFiles weights others = .ok otherScores ∧ otherScores.Perm scores := by
  rw [scoreFiles] at done ⊢
  rw [signalMedians_perm compares (same.map Prod.snd)]
  cases found : (signalMedians (measured.map Prod.snd) : Except ScoreFault (List α)) with
  | error fault =>
      rw [found] at done
      cases done
  | ok medians =>
      rw [found] at done
      exact exists_mapM_perm same done

end Scores

/-- A map with the same entries in another order has the same entry under each key. -/
theorem lookup_eq_of_perm {β : Type} {entries others : List (String × β)}
    (same : others.Perm entries) (distinct : (entries.map Prod.fst).Nodup) (key : String) :
    others.lookup key = entries.lookup key := by
  induction same with
  | nil => rfl
  | cons entry _ ih =>
      rw [List.map_cons, List.nodup_cons] at distinct
      rw [List.lookup_cons, List.lookup_cons, ih distinct.2]
  | swap one two rest =>
      obtain ⟨k, a⟩ := one
      obtain ⟨l, b⟩ := two
      have apart : k ≠ l := fun same => by simp [same] at distinct
      by_cases here : key = k
      · subst here
        simp [List.lookup_cons, beq_false_of_ne apart]
      · simp [List.lookup_cons, beq_false_of_ne here]
  | trans first second ihFirst ihSecond =>
      have middle := (second.map Prod.fst).nodup_iff.mpr distinct
      rw [ihFirst middle, ihSecond distinct]

/-- **The order of the files does not matter to their scores.** Files have paths of their own, they
declare components and utilities, and none declares the key of another file or of a declaration
there. In whatever order they come and whatever the weights are, the analysis of their graph comes
to an end or does not, and each file, and nothing else, has the same raw and the same normalized
score. -/
theorem analyze_perm (scope : InternalScope) (sources others : List SourceFile)
    (same : others.Perm sources) (distinct : (sources.map SourceFile.path).Nodup)
    (plain : ∀ s ∈ sources, ∀ d ∈ s.declarations, d.kind = .component ∨ d.kind = .utility)
    (apart : ∀ s ∈ sources, ∀ t ∈ sources, s.path ≠ t.path → ∀ d ∈ s.declarations,
      d.uniqueId ≠ t.path ∧ ∀ other ∈ t.declarations, d.uniqueId ≠ other.uniqueId)
    (weights : Weights Number) :
    ∃ g h, buildGraph scope sources = .ok g ∧ buildGraph scope others = .ok h ∧
      ((∃ scores, analyze weights g = .ok scores) ↔ ∃ scores, analyze weights h = .ok scores) ∧
      ∀ first second, analyze weights g = .ok first → analyze weights h = .ok second →
        (first.map Prod.fst).Perm (sources.map SourceFile.path) ∧
          (second.map Prod.fst).Perm (sources.map SourceFile.path) ∧
          ∀ key, second.lookup key = first.lookup key := by
  have orderly : Orderly sources := by
    refine ⟨distinct, plain, ?_⟩
    rintro s given t other away ⟨d, declared, same⟩
    exact (apart s given t other away d declared).1 same
  have declareApart : DeclareApart sources := by
    rintro s given t other away key ⟨d, declared, rfl⟩ ⟨d', declared', same⟩
    exact (apart s given t other away d declared).2 d' declared' same.symm
  have shown : Shows scope ([] ++ sources) _ := (shows_empty scope).build orderly
  have otherShown : Shows scope ([] ++ others) _ :=
    (shows_empty scope).build (orderly.perm same)
  have measured := signals_perm shown otherShown same orderly declareApart
  refine ⟨_, _, (sound_empty.build scope sources).1, (sound_empty.build scope others).1, ⟨?_, ?_⟩,
    ?_⟩
  · rintro ⟨scores, done⟩
    obtain ⟨otherScores, otherDone, -⟩ :=
      exists_scoreFiles_perm comparesIntegers_number measured done
    exact ⟨otherScores, otherDone⟩
  · rintro ⟨scores, done⟩
    obtain ⟨otherScores, otherDone, -⟩ :=
      exists_scoreFiles_perm comparesIntegers_number measured.symm done
    exact ⟨otherScores, otherDone⟩
  · intro first second done alsoDone
    obtain ⟨third, again, perm⟩ := exists_scoreFiles_perm comparesIntegers_number measured done
    cases alsoDone.symm.trans again
    have paths : (first.map Prod.fst).Perm (sources.map SourceFile.path) := by
      rw [keys_scoreFiles done]
      exact signals_keys_perm shown orderly
    exact ⟨paths, (perm.map Prod.fst).trans paths,
      lookup_eq_of_perm perm (paths.nodup_iff.mpr distinct)⟩

/-- The two files that import each other get scores, and the same ones the other way round. -/
theorem analyze_perm_measuredFiles :
    ∃ g h first second, buildGraph { root := "/app" } measuredFiles = .ok g ∧
      buildGraph { root := "/app" } measuredFiles.reverse = .ok h ∧
      analyze (Weights.default : Weights Number) g = .ok first ∧
      analyze (Weights.default : Weights Number) h = .ok second ∧
      (first.map Prod.fst).Perm ["/app/page.tsx", "/app/button.tsx"] ∧
      (second.map Prod.fst).Perm ["/app/page.tsx", "/app/button.tsx"] ∧
      ∀ key, second.lookup key = first.lookup key := by
  have evaluated : (buildGraph { root := "/app" } measuredFiles).toOption.map (fun g =>
      (analyze (Weights.default : Weights Number) g).isOk) = some true := by
    decide +kernel
  obtain ⟨g, h, built, alsoBuilt, ends, scored⟩ :=
    analyze_perm { root := "/app" } measuredFiles measuredFiles.reverse (List.reverse_perm _)
      (by decide +kernel) (by decide +kernel) (by decide +kernel) Weights.default
  rw [built] at evaluated
  cases done : analyze (Weights.default : Weights Number) g with
  | error fault =>
      rw [Except.toOption, Option.map_some, done] at evaluated
      cases evaluated
  | ok first =>
      obtain ⟨second, alsoDone⟩ := ends.mp ⟨first, done⟩
      exact ⟨g, h, first, second, built, alsoBuilt, done, alsoDone,
        scored first second done alsoDone⟩

end SourceAtlas.Analysis
