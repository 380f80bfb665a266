/-
# Statistics of scores

Figures over a map from keys to scores: averages, percentiles, extremes and outliers. Without
scores there is no average, and the figure is then no number rather than a fault.
-/

import SourceAtlas.Analysis.Arithmetic

namespace SourceAtlas.Analysis

open Arithmetic

variable {α : Type} [Arithmetic α]

/-- Scores by key, in the order of the keys. -/
abbrev ScoreMap (α : Type) := List (String × α)

def ScoreMap.values (scores : ScoreMap α) : List α := scores.map Prod.snd

/-- Sets a score: a known key keeps its place, a new one comes last. -/
def ScoreMap.set (scores : ScoreMap α) (key : String) (value : α) : ScoreMap α :=
  if scores.any (·.1 == key) then
    scores.map fun s => if s.1 == key then (key, value) else s
  else scores ++ [(key, value)]

/-- The map of a list of entries, where the last score given to a key counts. -/
def ScoreMap.ofEntries (entries : List (String × α)) : ScoreMap α :=
  entries.foldl (fun scores e => ScoreMap.set scores e.1 e.2) []

/-- The item at a position, or no number beyond the end. -/
def itemAt (values : List α) (i : Nat) : α := values.getD i notANumber

/-- The middle value, or the mean of the two middle ones. -/
def median (values : List α) : Except ScoreFault α := do
  if values.isEmpty then return notANumber
  let sorted ← ordered values
  let middle := sorted.length / 2
  if sorted.length % 2 == 0 then
    div (← add (itemAt sorted (middle - 1)) (itemAt sorted middle)) (ofInt 2)
  else return itemAt sorted middle

def meanScore (scores : ScoreMap α) : Except ScoreFault α := do
  let valid ← finiteOnes scores.values
  if valid.isEmpty then return notANumber
  div (← sum valid) (ofInt valid.length)

/-- The middle score, the upper one of two. -/
def medianScore (scores : ScoreMap α) : Except ScoreFault α := do
  let sorted ← ordered scores.values
  if sorted.isEmpty then return notANumber
  return itemAt sorted (sorted.length / 2)

/-- Refuses a percentile outside of zero to one. -/
def checkPercentile (percentile : α) : Except ScoreFault Unit := do
  if ← less percentile (ofInt 0) then throw .percentileRange
  if ← less (ofInt 1) percentile then throw .percentileRange

/-- The position, counted from one, of the cutoff for a percentile among a number of scores. -/
def cutoffRank (count : Nat) (percentile : α) : Except ScoreFault Int := do
  ceil (← mul (ofInt count) percentile)

/-- The score at a percentile of the ordered scores. -/
def percentileCutoff (scores : ScoreMap α) (percentile : α) : Except ScoreFault α := do
  checkPercentile percentile
  let sorted ← ordered scores.values
  if sorted.isEmpty || same percentile (ofInt 0) then return notANumber
  let rank ← cutoffRank sorted.length percentile
  return itemAt sorted (rank - 1).toNat

/-- The scores strictly below the cutoff of a percentile. -/
def belowPercentile (scores : ScoreMap α) (percentile : α) : Except ScoreFault (ScoreMap α) := do
  checkPercentile percentile
  if same percentile (ofInt 0) || scores.isEmpty then return []
  let cutoff ← percentileCutoff scores percentile
  scores.filterM fun s => less s.2 cutoff

/-- The finite score that no other finite score is better than, in the given order. -/
def extreme (better : α → α → Except ScoreFault Bool) (scores : ScoreMap α) :
    Except ScoreFault (ScoreMap α) := do
  match ← finiteOnes scores.values with
  | [] => return []
  | first :: rest =>
    let best ← rest.foldlM (fun best value => do
      if ← better value best then return value else return best) first
    return scores.filter fun s => same s.2 best

def leastCohesive (scores : ScoreMap α) : Except ScoreFault (ScoreMap α) :=
  extreme less scores

def mostCohesive (scores : ScoreMap α) : Except ScoreFault (ScoreMap α) :=
  extreme (fun a b => less b a) scores

/-- The bounds beyond which a score is an outlier: one and a half times the distance of the outer
quarters below the lower and above the upper one. -/
def outlierBounds (scores : ScoreMap α) : Except ScoreFault (α × α) := do
  let lower ← percentileCutoff scores (ofFraction 1 4)
  let upper ← percentileCutoff scores (ofFraction 3 4)
  let range ← sub upper lower
  let least ← sub lower (← mul (ofFraction 3 2) range)
  let greatest ← add upper (← mul (ofFraction 3 2) range)
  return (least, greatest)

def outliers (scores : ScoreMap α) : Except ScoreFault (ScoreMap α) := do
  if scores.isEmpty then return []
  let (least, greatest) ← outlierBounds scores
  scores.filterM fun s => do
    if ← less s.2 least then return true else less greatest s.2

def withoutOutliers (scores : ScoreMap α) : Except ScoreFault (ScoreMap α) := do
  let removed ← outliers scores
  return scores.filter fun s => !removed.any fun o => o.1 == s.1

structure Summary (α : Type) where
  count : Nat
  mean : α
  median : α
  most : ScoreMap α
  least : ScoreMap α
  percentile : α
  below : ScoreMap α
  outliers : ScoreMap α

def summarize (scores : ScoreMap α) (percentile : α) : Except ScoreFault (Summary α) := do
  let mean ← meanScore scores
  let middle ← medianScore scores
  let most ← mostCohesive scores
  let least ← leastCohesive scores
  let below ← belowPercentile scores percentile
  let beyond ← outliers scores
  return { count := scores.length, mean, median := middle, most, least, percentile, below
           outliers := beyond }

end SourceAtlas.Analysis
