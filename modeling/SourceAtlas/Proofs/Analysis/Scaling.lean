/-
# Normalized scores know no unit

A column of signals that is multiplied by a positive number has its median multiplied by the same
number, whether the count of files is odd or even, and a median of zero stays zero. So what a signal
is relative to its median does not change, and nor do the normalized scores, which tell how a file
stands among the others. Nothing is asked of the weights or of the signals, which may be negative.
-/

import SourceAtlas.Proofs.Analysis.Scoring

namespace SourceAtlas.Graph

/-- The node with its lines, if it is a file, multiplied. -/
def Node.scaleLines (c : ℕ) : Node → Node
  | .file n => .file { n with lineCount := c * n.lineCount }
  | .component n => .component n
  | .utility n => .utility n
  | .module n => .module n

/-- The graph with the lines of every file multiplied. -/
def DependencyGraph.scaleLines (c : ℕ) (g : DependencyGraph) : DependencyGraph :=
  { g with entries := g.entries.map fun e => (e.1, e.2.scaleLines c) }

end SourceAtlas.Graph

namespace SourceAtlas.Analysis

open Arithmetic SourceAtlas.Graph DependencyGraph

def Signals.scale (c : ℕ) : Column → Signals → Signals
  | .lines, s => { s with lines := c * s.lines }
  | .declarations, s => { s with declarations := c * s.declarations }
  | .dependencies, s => { s with dependencies := c * s.dependencies }

section Graphs

variable (c : ℕ) (g : DependencyGraph)

theorem keys_scaleLines : (g.scaleLines c).keys = g.keys := List.map_map

theorem node?_scaleLines (key : String) :
    (g.scaleLines c).node? key = (g.node? key).map (Node.scaleLines c) :=
  lookup_map_snd _ _ _

theorem isDeclaration_scaleLines (n : Node) : isDeclaration (n.scaleLines c) = isDeclaration n := by
  cases n <;> rfl

theorem adjacent_scaleLines (key : String) : adjacent (g.scaleLines c) key = adjacent g key := by
  have known : (g.scaleLines c).requireNode key = g.requireNode key := by
    rw [requireNode, requireNode, hasNode, hasNode, keys_scaleLines]
  rw [adjacent, adjacent, neighbors, neighbors, successors, successors, predecessors, predecessors,
    known]
  rfl

theorem declarationCount_scaleLines (key : String) :
    declarationCount (g.scaleLines c) key = declarationCount g key := by
  have sameTest : (fun k => ((g.scaleLines c).node? k).any isDeclaration) =
      fun k => (g.node? k).any isDeclaration := by
    funext k
    rw [node?_scaleLines, Option.any_map]
    exact congrArg (fun test => (g.node? k).any test) (funext (isDeclaration_scaleLines c))
  rw [declarationCount, declarationCount, adjacent_scaleLines, sameTest]

/-- Only the lines are measured differently. -/
theorem signals_scaleLines :
    signals (g.scaleLines c) = (signals g).map fun m => (m.1, m.2.scale c .lines) := by
  rw [signals, signals, List.map_filterMap, DependencyGraph.scaleLines, List.filterMap_map]
  refine List.filterMap_congr fun entry _ => ?_
  obtain ⟨key, node⟩ := entry
  have counted := declarationCount_scaleLines c g key
  cases node with
  | file n =>
      change some (key, Signals.mk _ (declarationCount (g.scaleLines c) key) _) = _
      rw [counted]
      rfl
  | component n => rfl
  | utility n => rfl
  | module n => rfl

end Graphs

/-- The median of multiplied numbers is the median multiplied. -/
theorem middle_map_mul {k : ℤ} (positive : 0 < k) (values : List ℤ) :
    middle (values.map (k * ·)) = k * middle values := by
  have sorted : (values.map (k * ·)).insertionSort (· ≤ ·) =
      (values.insertionSort (· ≤ ·)).map (k * ·) :=
    (List.map_insertionSort (· ≤ ·) (· ≤ ·) _ _ fun a _ b _ =>
      (mul_le_mul_iff_right₀ positive).symm).symm
  have item (i : ℕ) : ((values.insertionSort (· ≤ ·)).map (k * ·)).getD i 0 =
      k * (values.insertionSort (· ≤ ·)).getD i 0 := by
    have mapped := List.getD_map (values.insertionSort (· ≤ ·)) 0 (k * ·) (n := i)
    rwa [mul_zero] at mapped
  rw [middle, middle, sorted, List.length_map, item, item]
  push_cast
  ring

/-- What a column is multiplied by. -/
def scaleFactor (c : ℕ) (scaled column : Column) : ℤ := if column = scaled then c else 1

theorem scaleFactor_pos {c : ℕ} (positive : 0 < c) (scaled column : Column) :
    0 < scaleFactor c scaled column := by
  rw [scaleFactor]
  split
  · exact Int.natCast_pos.mpr positive
  · exact one_pos

theorem inColumn_scale (c : ℕ) (scaled : Column) (s : Signals) (column : Column) :
    (s.scale c scaled).inColumn column = scaleFactor c scaled column * s.inColumn column := by
  cases scaled <;> cases column <;> simp [Signals.scale, Signals.inColumn, scaleFactor]

theorem columnMedian_scale {c : ℕ} (positive : 0 < c) (scaled : Column) (all : List Signals)
    (column : Column) :
    columnMedian (all.map (Signals.scale c scaled)) column =
      scaleFactor c scaled column * columnMedian all column := by
  have values : (all.map (Signals.scale c scaled)).map (fun s => s.inColumn column) =
      (all.map fun s => s.inColumn column).map (scaleFactor c scaled column * ·) := by
    rw [List.map_map, List.map_map]
    exact List.map_congr_left fun s _ => inColumn_scale c scaled s column
  rw [columnMedian, columnMedian, values, middle_map_mul (scaleFactor_pos positive scaled column)]

/-- The factor of a column is divided out again. -/
theorem exactPair_snd_scale {c : ℕ} (positive : 0 < c) (scaled : Column) (weights : Weights ℚ)
    (all : List Signals) (s : Signals) :
    (exactPair weights (columnMedian (all.map (Signals.scale c scaled))) (s.scale c scaled)).2 =
      (exactPair weights (columnMedian all) s).2 := by
  have relative (column : Column) :
      ((s.scale c scaled).inColumn column : ℚ) /
          columnMedian (all.map (Signals.scale c scaled)) column =
        s.inColumn column / columnMedian all column := by
    have nonzero : (scaleFactor c scaled column : ℚ) ≠ 0 :=
      Int.cast_ne_zero.mpr (scaleFactor_pos positive scaled column).ne'
    rw [inColumn_scale, columnMedian_scale positive, Int.cast_mul, mul_div_mul_left _ _ nonzero]
  simp only [exactPair, relative]

theorem normalizedScores_scoreFiles_scale {c : ℕ} (positive : 0 < c) (scaled : Column)
    (weights : Weights ℚ) (measured : List (String × Signals)) :
    ∃ scores others, scoreFiles weights.exact measured = .ok scores ∧
      scoreFiles weights.exact (measured.map fun m => (m.1, m.2.scale c scaled)) = .ok others ∧
      normalizedScores others = normalizedScores scores := by
  refine ⟨_, _, scoreFiles_exact weights measured, scoreFiles_exact weights _, ?_⟩
  have signals : (measured.map fun m => (m.1, m.2.scale c scaled)).map Prod.snd =
      (measured.map Prod.snd).map (Signals.scale c scaled) := by
    rw [List.map_map, List.map_map]
    rfl
  rw [signals]
  generalize measured.map Prod.snd = all
  rw [normalizedScores, normalizedScores, List.map_map, List.map_map, List.map_map]
  refine List.map_congr_left fun m _ => ?_
  exact congrArg (Prod.mk m.1) (exactPair_snd_scale positive scaled weights _ m.2)

/-- **Normalized scores know no unit.** If the lines of every file of a graph are multiplied by a
positive number, each file keeps its normalized score; and so it does if any one signal of all
files, of a graph or not, is multiplied. -/
theorem normalizedScores_scale (weights : Weights ℚ) (c : ℕ) (positive : 0 < c) :
    (∀ g : DependencyGraph, ∃ scores others,
      analyze weights.exact g = .ok scores ∧
      analyze weights.exact (g.scaleLines c) = .ok others ∧
      normalizedScores others = normalizedScores scores) ∧
    ∀ (column : Column) (measured : List (String × Signals)), ∃ scores others,
      scoreFiles weights.exact measured = .ok scores ∧
      scoreFiles weights.exact (measured.map fun m => (m.1, m.2.scale c column)) = .ok others ∧
      normalizedScores others = normalizedScores scores := by
  refine ⟨fun g => ?_, fun column measured =>
    normalizedScores_scoreFiles_scale positive column weights measured⟩
  rw [analyze, analyze, signals_scaleLines]
  exact normalizedScores_scoreFiles_scale positive .lines weights (signals g)

/-- With three times the lines everywhere, the card and the page keep their normalized scores. -/
theorem normalizedScores_scale_unevenGraph :
    ∃ scores others, analyze (Weights.exact ⟨1 / 10, 1, 1 / 2⟩) unevenGraph = .ok scores ∧
      analyze (Weights.exact ⟨1 / 10, 1, 1 / 2⟩) (unevenGraph.scaleLines 3) = .ok others ∧
      normalizedScores others = normalizedScores scores ∧
      normalizedScores scores =
        [("/app/blank.ts", .infinity), ("/app/card.tsx", .number (10 / 11)),
          ("/app/page.tsx", .number (4 / 5))] := by
  obtain ⟨scores, others, done, alsoDone, same⟩ :=
    (normalizedScores_scale ⟨1 / 10, 1, 1 / 2⟩ 3 (by decide)).1 unevenGraph
  have evaluated : (analyze (Weights.exact ⟨1 / 10, 1, 1 / 2⟩) unevenGraph).toOption.map
      normalizedScores =
        some [("/app/blank.ts", .infinity), ("/app/card.tsx", .number (10 / 11)),
          ("/app/page.tsx", .number (4 / 5))] := by
    decide +kernel
  rw [done] at evaluated
  exact ⟨scores, others, done, alsoDone, same, Option.some.inj evaluated⟩

end SourceAtlas.Analysis
