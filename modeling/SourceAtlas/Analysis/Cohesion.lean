/-
# Cohesion of files

A file is the more cohesive the fewer lines, declarations and internal dependencies it has. These
three signals are weighted and summed, and the score is one over the sum. The raw score takes the
signals as they are; the normalized score takes each of them relative to its median over all files.
-/

import SourceAtlas.Analysis.Statistics
import SourceAtlas.Graph.Basic

namespace SourceAtlas.Analysis

open Arithmetic SourceAtlas.Graph

variable {α : Type} [Arithmetic α]

/-- How much each signal counts. -/
structure Weights (α : Type) where
  lines : α
  declarations : α
  dependencies : α

/-- A tenth for a line, one for a declaration, a half for a dependency. -/
def Weights.default : Weights α where
  lines := ofFraction 1 10
  declarations := ofFraction 1 1
  dependencies := ofFraction 1 2

def Weights.toList (w : Weights α) : List α := [w.lines, w.declarations, w.dependencies]

/-- A signal relative to its median; a median of zero gives zero. -/
def normalize (value median : α) : Except ScoreFault α :=
  if same median (ofInt 0) then .ok (ofFraction 0 1) else div value median

def weightedSum (weights : Weights α) (signals : List α) : Except ScoreFault α := do
  let products ← (signals.zip weights.toList).mapM fun p => mul p.1 p.2
  sum products

/-- One over the weighted sum; a sum of zero gives infinity. -/
def cohesionScore (weights : Weights α) (signals : List α) : Except ScoreFault α := do
  let total ← weightedSum weights signals
  if same total (ofInt 0) then return infinity
  div (ofInt 1) total

/-- What is measured of one file. -/
structure Signals where
  lines : Int
  declarations : Nat
  dependencies : Nat
deriving DecidableEq, Repr

def Signals.toList (s : Signals) : List α :=
  [ofInt s.lines, ofInt s.declarations, ofInt s.dependencies]

def isDeclaration (n : Node) : Bool := n.kind == .component || n.kind == .utility

/-- The nodes next to a key in either direction, each once. -/
def adjacent (g : DependencyGraph) (key : String) : List String :=
  match g.neighbors key with
  | .ok keys => keys
  | .error _ => []

def declarationCount (g : DependencyGraph) (key : String) : Nat :=
  (adjacent g key).countP fun k => (g.node? k).any isDeclaration

/-- The signals of a node if it is a file. -/
def fileSignals? (g : DependencyGraph) (entry : String × Node) : Option (String × Signals) :=
  match entry.2 with
  | .file n =>
    some (entry.1,
      { lines := n.lineCount, declarations := declarationCount g entry.1
        dependencies := n.dependencies.length })
  | _ => none

def signals (g : DependencyGraph) : List (String × Signals) :=
  g.entries.filterMap (fileSignals? g)

/-- The median of each signal over all files. -/
def signalMedians (all : List Signals) : Except ScoreFault (List α) := do
  let lines ← median (all.map fun s => ofInt s.lines)
  let declarations ← median (all.map fun s => ofInt s.declarations)
  let dependencies ← median (all.map fun s => ofInt s.dependencies)
  return [lines, declarations, dependencies]

def scorePair (weights : Weights α) (medians : List α) (s : Signals) :
    Except ScoreFault (α × α) := do
  let relative ← (s.toList.zip medians).mapM fun p => normalize p.1 p.2
  let raw ← cohesionScore weights s.toList
  let normalized ← cohesionScore weights relative
  return (raw, normalized)

/-- The raw and the normalized score of every file. The medians are those of the given files, so a
file that is added or left out can change the normalized scores of all others, but no raw score. -/
def scoreFiles (weights : Weights α) (measured : List (String × Signals)) :
    Except ScoreFault (List (String × (α × α))) := do
  let medians ← signalMedians (measured.map Prod.snd)
  measured.mapM fun m => do
    let pair ← scorePair weights medians m.2
    return (m.1, pair)

/-- The raw and the normalized score of every file of a graph, in the order of its nodes. A raw
score weighs what is measured of the file; a normalized one weighs it relative to the medians over
all files. Declarations and placeholders have no scores. -/
def analyze (weights : Weights α) (g : DependencyGraph) :
    Except ScoreFault (List (String × (α × α))) :=
  scoreFiles weights (signals g)

def rawScores (scores : List (String × (α × α))) : ScoreMap α :=
  scores.map fun s => (s.1, s.2.1)

def normalizedScores (scores : List (String × (α × α))) : ScoreMap α :=
  scores.map fun s => (s.1, s.2.2)

def scoreMapRecord (scores : ScoreMap Number) : Json :=
  .object (scores.map fun s => (s.1, .number s.2))

def Weights.record (w : Weights Number) : Json :=
  .object
    [("line_count", .number w.lines),
      ("component_utility_count", .number w.declarations),
      ("dependency_count", .number w.dependencies)]

def Summary.record (s : Summary Number) : Json :=
  .object
    [("count", .nat s.count),
      ("mean", .number s.mean),
      ("median", .number s.median),
      ("most_cohesive", scoreMapRecord s.most),
      ("least_cohesive", scoreMapRecord s.least),
      ("below_percentile",
        .object [("percentile", .number s.percentile), ("scores", scoreMapRecord s.below)]),
      ("outliers", scoreMapRecord s.outliers)]

/-- The figures of the raw and of the normalized scores. -/
def statisticsRecord (weights : Weights Number) (scores : List (String × (Number × Number)))
    (percentile : Number) : Except ScoreFault Json := do
  let raw ← summarize (rawScores scores) percentile
  let normalized ← summarize (normalizedScores scores) percentile
  return .object
    [("weights", weights.record), ("raw", raw.record), ("normalized", normalized.record)]

end SourceAtlas.Analysis
