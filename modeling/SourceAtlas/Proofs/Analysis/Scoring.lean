/-
# Scores in exact arithmetic

Without rounding, the score of a file is one over the weighted sum of its signals, or of what its
signals are relative to the medians over all files. Three divisions are made on the way, by two for
a median between two files, by a median, and by the weighted sum, and the last two are left out
where they would be by zero. So every file of every graph gets its two scores.

If no weight and no count of lines is negative, the scores are positive, they are infinite just
where nothing that is weighted is left of the signals, and smaller signals never score less.
-/

import Mathlib.Data.List.GetD
import Mathlib.Tactic.Linarith
import SourceAtlas.Proofs.Analysis.Exact
import SourceAtlas.Proofs.Analysis.Signals

namespace SourceAtlas.Analysis

open Arithmetic SourceAtlas.Graph DependencyGraph

/-- What files are measured by. -/
inductive Column where
  | lines
  | declarations
  | dependencies
deriving DecidableEq

/-- The signal of a file in a column. -/
def Signals.inColumn (s : Signals) : Column → ℤ
  | .lines => s.lines
  | .declarations => s.declarations
  | .dependencies => s.dependencies

def Weights.ofColumn {α : Type} (w : Weights α) : Column → α
  | .lines => w.lines
  | .declarations => w.declarations
  | .dependencies => w.dependencies

def Weights.exact (w : Weights ℚ) : Weights Exact where
  lines := .number w.lines
  declarations := .number w.declarations
  dependencies := .number w.dependencies

/-- The numbers of the columns, in the order of the signals. -/
def numbers (values : Column → ℚ) : List Exact :=
  [.number (values .lines), .number (values .declarations), .number (values .dependencies)]

theorem comparesIntegers_exact : ComparesIntegers Exact := by
  intro m n
  change Except.ok (decide (Exact.number m < .number n)) = _
  simp only [Exact.number_lt_number, Int.cast_lt]

/-- The mean of the two middle ones of some numbers; of an odd count these are one and the same. -/
def middle (values : List ℤ) : ℚ :=
  let sorted := values.insertionSort (· ≤ ·)
  (sorted.getD ((values.length - 1) / 2) 0 + sorted.getD (values.length / 2) 0 : ℤ) / 2

theorem itemAt_map_ofInt {values : List ℤ} {i : ℕ} (within : i < values.length) :
    itemAt (values.map ofInt) i = Exact.number (values.getD i 0) := by
  rw [itemAt, List.getD_eq_getElem _ _ (by rwa [List.length_map]), List.getElem_map,
    List.getD_eq_getElem _ _ within]
  rfl

/-- There is a median as soon as there is a number. -/
theorem median_map_ofInt {values : List ℤ} (nonempty : values ≠ []) :
    median (values.map ofInt) = .ok (Exact.number (middle values)) := by
  have positive : 0 < values.length := List.length_pos_of_ne_nil nonempty
  have filled : (values.map ofInt : List Exact).isEmpty = false := by
    rwa [List.isEmpty_map, List.isEmpty_eq_false_iff]
  rw [median, filled, ordered_map_ofInt comparesIntegers_exact, middle]
  have size : (values.insertionSort (· ≤ ·)).length = values.length := List.length_insertionSort ..
  generalize values.insertionSort (· ≤ ·) = sorted at size ⊢
  change ite ((sorted.map ofInt).length % 2 == 0) _ _ = _
  rw [List.length_map, size]
  by_cases even : values.length % 2 = 0
  · have lower : (values.length - 1) / 2 = values.length / 2 - 1 := by omega
    rw [if_pos (beq_iff_eq.mpr even), itemAt_map_ofInt (by omega), itemAt_map_ofInt (by omega),
      lower]
    change (Exact.number (_ + _)).div (.number (2 : ℤ)) = _
    rw [Exact.div_number (by norm_num)]
    push_cast
    rfl
  · have lower : (values.length - 1) / 2 = values.length / 2 := by omega
    rw [if_neg (mt beq_iff_eq.mp even), itemAt_map_ofInt (by omega), lower]
    change Except.ok _ = _
    congr 2
    push_cast
    ring

theorem middle_nonneg {values : List ℤ} (nonnegative : ∀ v ∈ values, 0 ≤ v) :
    0 ≤ middle values := by
  have item (i : ℕ) : 0 ≤ (values.insertionSort (· ≤ ·)).getD i 0 := by
    rcases lt_or_ge i (values.insertionSort (· ≤ ·)).length with within | beyond
    · rw [List.getD_eq_getElem _ _ within]
      exact nonnegative _ ((List.mem_insertionSort _).mp (List.getElem_mem within))
    · rw [List.getD_eq_default _ _ beyond]
  exact div_nonneg (Int.cast_nonneg (add_nonneg (item _) (item _))) zero_le_two

def columnMedian (all : List Signals) (column : Column) : ℚ :=
  middle (all.map fun s => s.inColumn column)

theorem median_column {all : List Signals} (nonempty : all ≠ []) (column : Column) :
    median (all.map fun s => ofInt (s.inColumn column)) =
      .ok (Exact.number (columnMedian all column)) := by
  have filled : (all.map fun s => s.inColumn column) ≠ [] := mt List.map_eq_nil_iff.mp nonempty
  have values := median_map_ofInt filled
  rwa [List.map_map] at values

theorem signalMedians_exact {all : List Signals} (nonempty : all ≠ []) :
    signalMedians all = .ok (numbers (columnMedian all)) := by
  have lines := median_column nonempty .lines
  have declarations := median_column nonempty .declarations
  have dependencies := median_column nonempty .dependencies
  simp only [Signals.inColumn] at lines declarations dependencies
  rw [signalMedians, lines, declarations, dependencies]
  rfl

/-! ## The scores of one file -/

/-- The weighted sum of a number for each column. -/
def weightedTotal (weights : Weights ℚ) (values : Column → ℚ) : ℚ :=
  weights.lines * values .lines + weights.declarations * values .declarations +
    weights.dependencies * values .dependencies

/-- One over a number, and infinity over zero. -/
def oneOver (total : ℚ) : Exact :=
  if total = 0 then .infinity else .number (1 / total)

theorem weightedSum_numbers (weights : Weights ℚ) (values : Column → ℚ) :
    weightedSum weights.exact (numbers values) = .ok (.number (weightedTotal weights values)) := by
  have summed : weightedSum weights.exact (numbers values) =
      .ok (.number ((0 : ℤ) + values .lines * weights.lines +
        values .declarations * weights.declarations +
        values .dependencies * weights.dependencies)) := rfl
  rw [summed, weightedTotal]
  congr 2
  push_cast
  ring

theorem cohesionScore_numbers (weights : Weights ℚ) (values : Column → ℚ) :
    cohesionScore weights.exact (numbers values) =
      .ok (oneOver (weightedTotal weights values)) := by
  rw [cohesionScore, weightedSum_numbers]
  generalize weightedTotal weights values = total
  change (if same (Exact.number total) (ofInt 0) then _ else _) = _
  rw [Exact.same_number_zero, oneOver]
  by_cases zero : total = 0
  · rw [if_pos (decide_eq_true zero), if_pos zero]
    rfl
  · rw [if_neg (mt of_decide_eq_true zero), if_neg zero]
    change (Exact.number (1 : ℤ)).div (.number total) = _
    rw [Exact.div_number zero, Int.cast_one]

/-- A signal relative to a median. Rational numbers divided by zero are zero by convention, which is
what a median of zero gives. -/
theorem normalize_number (value median : ℚ) :
    normalize (Exact.number value) (.number median) = .ok (.number (value / median)) := by
  rw [normalize, Exact.same_number_zero]
  by_cases zero : median = 0
  · rw [if_pos (decide_eq_true zero), zero, div_zero]
    change Except.ok (Exact.number (((0 : ℤ) : ℚ) / ((1 : ℕ) : ℚ))) = _
    rw [Int.cast_zero, zero_div]
  · rw [if_neg (mt of_decide_eq_true zero)]
    exact Exact.div_number zero

/-- The raw and the normalized score of signals, given the medians. -/
def exactPair (weights : Weights ℚ) (medians : Column → ℚ) (s : Signals) : Exact × Exact :=
  (oneOver (weightedTotal weights fun column => s.inColumn column),
    oneOver (weightedTotal weights fun column => s.inColumn column / medians column))

theorem scorePair_exact (weights : Weights ℚ) (medians : Column → ℚ) (s : Signals) :
    scorePair weights.exact (numbers medians) s = .ok (exactPair weights medians s) := by
  have relative : (s.toList.zip (numbers medians)).mapM (fun p => normalize p.1 p.2) =
      .ok (numbers fun column => s.inColumn column / medians column) := by
    change List.mapM _ [(Exact.number s.lines, _), (.number (s.declarations : ℤ), _),
      (.number (s.dependencies : ℤ), _)] = _
    simp only [List.mapM_cons, List.mapM_nil, normalize_number]
    rfl
  have signals : s.toList = numbers fun column => s.inColumn column := rfl
  rw [scorePair, relative, signals]
  simp only [bind, Except.bind, cohesionScore_numbers]
  rfl

/-- Every file gets its two scores, whatever the signals and the weights are. -/
theorem scoreFiles_exact (weights : Weights ℚ) (measured : List (String × Signals)) :
    scoreFiles weights.exact measured =
      .ok (measured.map fun m =>
        (m.1, exactPair weights (columnMedian (measured.map Prod.snd)) m.2)) := by
  by_cases empty : measured = []
  -- Without files the medians are no numbers, but then nothing is divided by them.
  · rw [empty]
    rfl
  rw [scoreFiles, signalMedians_exact (mt List.map_eq_nil_iff.mp empty)]
  change measured.mapM _ = _
  simp only [scorePair_exact]
  exact List.mapM_pure

theorem Column.forall_iff {P : Column → Prop} :
    (∀ column, P column) ↔ P .lines ∧ P .declarations ∧ P .dependencies := by
  constructor
  · intro every
    exact ⟨every _, every _, every _⟩
  · rintro ⟨lines, declarations, dependencies⟩ column
    cases column with
    | lines => exact lines
    | declarations => exact declarations
    | dependencies => exact dependencies

section Nonnegative

variable {weights : Weights ℚ} (nonnegative : ∀ column, 0 ≤ weights.ofColumn column)
include nonnegative

theorem weightedTotal_mono {values others : Column → ℚ}
    (smaller : ∀ column, values column ≤ others column) :
    weightedTotal weights values ≤ weightedTotal weights others := by
  have weighted (column : Column) := mul_le_mul_of_nonneg_left (smaller column) (nonnegative column)
  exact add_le_add (add_le_add (weighted .lines) (weighted .declarations)) (weighted .dependencies)

theorem weightedTotal_nonneg {values : Column → ℚ} (counted : ∀ column, 0 ≤ values column) :
    0 ≤ weightedTotal weights values := by
  have least := weightedTotal_mono nonnegative counted
  rwa [weightedTotal, mul_zero, mul_zero, mul_zero, add_zero, add_zero] at least

/-- A weighted sum is zero just if everything with a positive weight is. -/
theorem weightedTotal_eq_zero_iff {values : Column → ℚ} (counted : ∀ column, 0 ≤ values column) :
    weightedTotal weights values = 0 ↔
      ∀ column, 0 < weights.ofColumn column → values column = 0 := by
  have product (column : Column) : 0 ≤ weights.ofColumn column * values column :=
    mul_nonneg (nonnegative column) (counted column)
  have product_eq_zero_iff (column : Column) :
      weights.ofColumn column * values column = 0 ↔
        (0 < weights.ofColumn column → values column = 0) := by
    rw [mul_eq_zero, or_iff_not_imp_left, (nonnegative column).lt_iff_ne', ne_eq]
  have total : weightedTotal weights values = 0 ↔
      ∀ column, weights.ofColumn column * values column = 0 := by
    rw [Column.forall_iff, weightedTotal, ← and_assoc]
    exact (add_eq_zero_iff_of_nonneg (add_nonneg (product .lines) (product .declarations))
      (product .dependencies)).trans
        (and_congr_left' (add_eq_zero_iff_of_nonneg (product .lines) (product .declarations)))
  rw [total]
  exact forall_congr' product_eq_zero_iff

end Nonnegative

theorem oneOver_eq_infinity_iff {total : ℚ} : oneOver total = .infinity ↔ total = 0 := by
  rw [oneOver]
  split
  · rename_i zero
    exact iff_of_true rfl zero
  · rename_i nonzero
    refine iff_of_false ?_ nonzero
    intro same
    cases same

theorem oneOver_of_pos {total : ℚ} (positive : 0 < total) : oneOver total = .number (1 / total) :=
  if_neg positive.ne'

theorem exists_oneOver_eq_number {total : ℚ} (nonnegative : 0 ≤ total)
    (finite : oneOver total ≠ .infinity) : ∃ q : ℚ, 0 < q ∧ oneOver total = .number q := by
  have positive : 0 < total :=
    nonnegative.lt_of_ne' (mt oneOver_eq_infinity_iff.mpr finite)
  exact ⟨1 / total, one_div_pos.mpr positive, oneOver_of_pos positive⟩

theorem oneOver_ne_notANumber (total : ℚ) : oneOver total ≠ .notANumber := by
  rw [oneOver]
  split
  · exact Exact.infinity_ne_notANumber
  · exact Exact.number_ne_notANumber _

theorem oneOver_antitone {total other : ℚ} (nonnegative : 0 ≤ total) (smaller : total ≤ other) :
    oneOver other ≤ oneOver total := by
  rcases nonnegative.eq_or_lt with rfl | positive
  · rw [oneOver_eq_infinity_iff.mpr rfl]
    exact Exact.le_infinity (oneOver_ne_notANumber other)
  · rw [oneOver_of_pos positive, oneOver_of_pos (positive.trans_le smaller), Exact.number_le_number]
    exact one_div_le_one_div_of_le positive smaller

section Pairs

variable {weights : Weights ℚ} (nonnegative : ∀ column, 0 ≤ weights.ofColumn column)
  {medians : Column → ℚ} (typical : ∀ column, 0 ≤ medians column)
  {s : Signals} (counted : ∀ column, 0 ≤ s.inColumn column)
include nonnegative counted

theorem rawTotal_nonneg : 0 ≤ weightedTotal weights fun column => s.inColumn column :=
  weightedTotal_nonneg nonnegative fun column => Int.cast_nonneg (counted column)

/-- The raw score is infinite just if every signal with a positive weight is zero. -/
theorem exactPair_fst_eq_infinity_iff :
    (exactPair weights medians s).1 = .infinity ↔
      ∀ column, 0 < weights.ofColumn column → s.inColumn column = 0 := by
  rw [exactPair, oneOver_eq_infinity_iff,
    weightedTotal_eq_zero_iff nonnegative fun column => Int.cast_nonneg (counted column)]
  simp only [Int.cast_eq_zero]

include typical

theorem relativeTotal_nonneg :
    0 ≤ weightedTotal weights fun column => s.inColumn column / medians column :=
  weightedTotal_nonneg nonnegative fun column =>
    div_nonneg (Int.cast_nonneg (counted column)) (typical column)

/-- The normalized score is infinite just if every signal with a positive weight is zero or has the
median zero. -/
theorem exactPair_snd_eq_infinity_iff :
    (exactPair weights medians s).2 = .infinity ↔
      ∀ column, 0 < weights.ofColumn column → s.inColumn column = 0 ∨ medians column = 0 := by
  rw [exactPair, oneOver_eq_infinity_iff, weightedTotal_eq_zero_iff nonnegative fun column =>
    div_nonneg (Int.cast_nonneg (counted column)) (typical column)]
  simp only [div_eq_zero_iff, Int.cast_eq_zero]

/-- Fewer lines, declarations and dependencies never score less. -/
theorem exactPair_antitone {more : Signals}
    (smaller : ∀ column, s.inColumn column ≤ more.inColumn column) :
    (exactPair weights medians more).1 ≤ (exactPair weights medians s).1 ∧
      (exactPair weights medians more).2 ≤ (exactPair weights medians s).2 := by
  have fewer (column : Column) : (s.inColumn column : ℚ) ≤ more.inColumn column :=
    Int.cast_le.mpr (smaller column)
  constructor
  · exact oneOver_antitone (rawTotal_nonneg nonnegative counted)
      (weightedTotal_mono nonnegative fewer)
  · refine oneOver_antitone (relativeTotal_nonneg nonnegative typical counted)
      (weightedTotal_mono nonnegative fun column => ?_)
    exact div_le_div_of_nonneg_right (fewer column) (typical column)

end Pairs

/-! ## The scores of a graph -/

section Counted

variable {g : DependencyGraph}
  (counted : ∀ key n, (key, Node.file n) ∈ g.entries → 0 ≤ n.lineCount)
include counted

theorem inColumn_nonneg {measured : String × Signals} (listed : measured ∈ signals g)
    (column : Column) : 0 ≤ measured.2.inColumn column := by
  obtain ⟨⟨key, node⟩, stored, found⟩ := List.mem_filterMap.mp listed
  obtain ⟨n, isFile, rfl⟩ := fileSignals?_eq_some_iff.mp found
  cases isFile
  cases column with
  | lines => exact counted key n stored
  | declarations => exact Int.natCast_nonneg _
  | dependencies => exact Int.natCast_nonneg _

theorem columnMedian_nonneg (column : Column) :
    0 ≤ columnMedian ((signals g).map Prod.snd) column := by
  apply middle_nonneg
  intro value listed
  rw [List.map_map] at listed
  obtain ⟨measured, among, rfl⟩ := List.mem_map.mp listed
  exact inColumn_nonneg counted among column

end Counted

theorem median_signals_eq_zero_iff {g : DependencyGraph} (nonempty : signals g ≠ [])
    (column : Column) :
    median ((signals g).map fun m => ofInt (m.2.inColumn column)) = .ok (Exact.number 0) ↔
      columnMedian ((signals g).map Prod.snd) column = 0 := by
  have filled : (signals g).map Prod.snd ≠ [] := mt List.map_eq_nil_iff.mp nonempty
  have found := median_column filled column
  rw [List.map_map] at found
  constructor
  · intro zero
    exact Exact.number.inj (Except.ok.inj (found.symm.trans zero))
  · intro zero
    rw [← zero]
    exact found

/-- **When a score is infinite.** Let no weight and no count of lines be negative. Then the analysis
of a graph comes to an end, so that nothing was divided by zero, with one pair of scores for each
file in the order of the nodes. The raw score of a file is infinite just if every signal with a
positive weight is zero, its normalized score just if every such signal is zero or has the median
zero, and every score that is not infinite is a positive number. -/
theorem analyze_exact (g : DependencyGraph) (weights : Weights ℚ)
    (counted : ∀ key n, (key, Node.file n) ∈ g.entries → 0 ≤ n.lineCount)
    (nonnegative : ∀ column, 0 ≤ weights.ofColumn column) :
    ∃ scores, analyze weights.exact g = .ok scores ∧
      scores.map Prod.fst = g.keysOfKind .file ∧
      List.Forall₂ (fun measured scored =>
        measured.1 = scored.1 ∧
        (scored.2.1 = .infinity ↔
          ∀ column, 0 < weights.ofColumn column → measured.2.inColumn column = 0) ∧
        (scored.2.2 = .infinity ↔
          ∀ column, 0 < weights.ofColumn column → measured.2.inColumn column = 0 ∨
            median ((signals g).map fun m => ofInt (m.2.inColumn column)) =
              .ok (Exact.number 0)) ∧
        (scored.2.1 ≠ .infinity → ∃ q : ℚ, 0 < q ∧ scored.2.1 = .number q) ∧
        (scored.2.2 ≠ .infinity → ∃ q : ℚ, 0 < q ∧ scored.2.2 = .number q))
        (signals g) scores := by
  refine ⟨_, scoreFiles_exact weights (signals g), ?_, ?_⟩
  · rw [List.map_map, ← signals_keys]
    rfl
  rw [List.forall₂_map_right_iff, List.forall₂_same]
  intro measured listed
  have signal := inColumn_nonneg counted listed
  have typical := columnMedian_nonneg counted
  refine ⟨rfl, exactPair_fst_eq_infinity_iff nonnegative signal, ?_,
    exists_oneOver_eq_number (rawTotal_nonneg nonnegative signal),
    exists_oneOver_eq_number (relativeTotal_nonneg nonnegative typical signal)⟩
  simp only [median_signals_eq_zero_iff (List.ne_nil_of_mem listed)]
  exact exactPair_snd_eq_infinity_iff nonnegative typical signal

/-- An empty file, one that declares a component, and one that declares another and imports. -/
def unevenGraph : DependencyGraph where
  entries :=
    [("/app/blank.ts", .file { name := "blank.ts", path := "/app/blank.ts" }),
      ("/app/card.tsx", .file { name := "card.tsx", path := "/app/card.tsx", lineCount := 20 }),
      ("Card:/app/card.tsx", .component { name := "Card", path := "/app/card.tsx" }),
      ("/app/page.tsx",
        .file
          { name := "page.tsx", path := "/app/page.tsx", lineCount := 50
            dependencies := ["./card"] }),
      ("Page:/app/page.tsx", .component { name := "Page", path := "/app/page.tsx" })]
  arcs :=
    [{ source := "/app/card.tsx", target := "Card:/app/card.tsx", kind := .contains },
      { source := "/app/page.tsx", target := "Page:/app/page.tsx", kind := .contains },
      { source := "/app/page.tsx", target := "/app/card.tsx", kind := .imports }]

theorem lineCount_nonneg_unevenGraph (key : String) (n : FileNode)
    (stored : (key, Node.file n) ∈ unevenGraph.entries) : 0 ≤ n.lineCount := by
  simp only [unevenGraph, List.mem_cons, Prod.mk.injEq, Node.file.injEq, reduceCtorEq, and_false,
    List.not_mem_nil, or_false, false_or] at stored
  rcases stored with ⟨-, rfl⟩ | ⟨-, rfl⟩ | ⟨-, rfl⟩ <;> decide

/-- Only dependencies are weighted and most files have none, so the median is zero: two raw scores
are infinite and the normalized ones all are. -/
theorem analyze_exact_unevenGraph :
    ∃ scores, analyze (Weights.exact ⟨0, 0, 1 / 2⟩) unevenGraph = .ok scores ∧
      scores.map Prod.fst = ["/app/blank.ts", "/app/card.tsx", "/app/page.tsx"] ∧
      scores.map Prod.snd =
        [(.infinity, .infinity), (.infinity, .infinity), (.number 2, .infinity)] := by
  obtain ⟨scores, done, keys, -⟩ := analyze_exact unevenGraph ⟨0, 0, 1 / 2⟩
    lineCount_nonneg_unevenGraph (Column.forall_iff.mpr (by decide +kernel))
  have evaluated : (analyze (Weights.exact ⟨0, 0, 1 / 2⟩) unevenGraph).toOption.map
      (List.map Prod.snd) =
        some [(.infinity, .infinity), (.infinity, .infinity), (.number 2, .infinity)] := by
    decide +kernel
  rw [done] at evaluated
  exact ⟨scores, done, keys.trans (by decide +kernel), Option.some.inj evaluated⟩

theorem lookup_map_snd {β γ : Type} (f : β → γ) (entries : List (String × β)) (key : String) :
    (entries.map fun e => (e.1, f e.2)).lookup key = (entries.lookup key).map f := by
  induction entries with
  | nil => rfl
  | cons entry rest ih =>
      rw [List.map_cons, List.lookup_cons, List.lookup_cons, ih]
      cases key == entry.1 <;> rfl

/-- **Smaller signals never score less.** Let no weight and no count of lines be negative. If a file
has at most the lines, the declarations and the dependencies of another one, then its raw and its
normalized score are at least those of the other: the medians do not turn the two around. -/
theorem analyze_antitone (g : DependencyGraph) (weights : Weights ℚ)
    (counted : ∀ key n, (key, Node.file n) ∈ g.entries → 0 ≤ n.lineCount)
    (nonnegative : ∀ column, 0 ≤ weights.ofColumn column) :
    ∃ scores, analyze weights.exact g = .ok scores ∧
      ∀ lesser greater few many, (signals g).lookup lesser = some few →
        (signals g).lookup greater = some many →
        (∀ column, few.inColumn column ≤ many.inColumn column) →
        ∃ above below, scores.lookup lesser = some above ∧ scores.lookup greater = some below ∧
          below.1 ≤ above.1 ∧ below.2 ≤ above.2 := by
  refine ⟨_, scoreFiles_exact weights (signals g), ?_⟩
  intro lesser greater few many found alsoFound smaller
  have listed : (lesser, few) ∈ signals g := by
    obtain ⟨before, after, split, -⟩ := List.lookup_eq_some_iff.mp found
    simp [split]
  have ranked := exactPair_antitone nonnegative (columnMedian_nonneg counted)
    (inColumn_nonneg counted listed) smaller
  refine ⟨_, _, ?_, ?_, ranked⟩
  · rw [lookup_map_snd, found, Option.map_some]
  · rw [lookup_map_snd, alsoFound, Option.map_some]

/-- The card has fewer lines and dependencies than the page, and as many declarations. -/
theorem analyze_antitone_unevenGraph :
    ∃ scores above below, analyze (Weights.exact ⟨1 / 10, 1, 1 / 2⟩) unevenGraph = .ok scores ∧
      scores.lookup "/app/card.tsx" = some above ∧ scores.lookup "/app/page.tsx" = some below ∧
      below.1 ≤ above.1 ∧ below.2 ≤ above.2 := by
  obtain ⟨scores, done, ranked⟩ := analyze_antitone unevenGraph ⟨1 / 10, 1, 1 / 2⟩
    lineCount_nonneg_unevenGraph (Column.forall_iff.mpr (by decide +kernel))
  obtain ⟨above, below, found⟩ := ranked "/app/card.tsx" "/app/page.tsx"
    { lines := 20, declarations := 1, dependencies := 0 }
    { lines := 50, declarations := 1, dependencies := 1 }
    (by decide +kernel) (by decide +kernel) (Column.forall_iff.mpr (by decide +kernel))
  exact ⟨scores, above, below, done, found⟩

end SourceAtlas.Analysis
