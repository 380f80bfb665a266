/-
# Percentiles

The cutoff of a percentile is the score at a certain position of the ordered scores: counted from
one, the percentile of their number, rounded up. Ties and infinite scores do not matter to what can
be said of it. As many scores as the position says are at most the cutoff, and fewer are below it,
so that the scores below a percentile are always a smaller part of all scores than it says.
-/

import SourceAtlas.Proofs.Analysis.Exact

namespace SourceAtlas.Analysis

open Arithmetic

section Positions

variable {ι β : Type} [LinearOrder β] {place : ι → β} {sorted : List ι}
  (ascending : sorted.Pairwise fun a b => place a ≤ place b) {k : ℕ} (within : k < sorted.length)
include ascending

/-- Everything up to a position is at most what is there. -/
theorem lt_countP_le : k < sorted.countP fun item => place item ≤ place sorted[k] := by
  have first : ∀ item ∈ sorted.take (k + 1), decide (place item ≤ place sorted[k]) = true := by
    intro item listed
    rw [decide_eq_true_eq]
    obtain ⟨i, bound, rfl⟩ := List.mem_take_iff_getElem.mp listed
    rcases (show i ≤ k by omega).lt_or_eq with before | rfl
    · exact List.pairwise_iff_getElem.mp ascending i k _ within before
    · exact le_rfl
  calc
    k < (sorted.take (k + 1)).length := by rw [List.length_take]; omega
    _ = (sorted.take (k + 1)).countP _ := (List.countP_eq_length.mpr first).symm
    _ ≤ sorted.countP _ := (List.take_sublist _ _).countP_le

/-- Only what is before a position can be below what is there. -/
theorem countP_lt_le : (sorted.countP fun item => place item < place sorted[k]) ≤ k := by
  have last : ∀ item ∈ sorted.drop k, ¬ decide (place item < place sorted[k]) = true := by
    intro item listed
    rw [decide_eq_true_eq, not_lt]
    obtain ⟨i, bound, rfl⟩ := List.mem_drop_iff_getElem.mp listed
    rcases Nat.eq_zero_or_pos i with rfl | later
    · exact le_rfl
    · exact List.pairwise_iff_getElem.mp ascending k (k + i) within _ (by omega)
  calc
    sorted.countP _ = (sorted.take k ++ sorted.drop k).countP _ := by rw [List.take_append_drop]
    _ = (sorted.take k).countP _ := by
      rw [List.countP_append, List.countP_eq_zero.mpr last, add_zero]
    _ ≤ k := List.countP_le_length.trans (List.length_take_le _ _)

end Positions

section Ordered

variable {scores : ScoreMap Exact} (proper : ∀ s ∈ scores, s.2 ≠ .notANumber)

/-- The entries from the least to the greatest score. -/
def byScore (scores : ScoreMap Exact) : ScoreMap Exact :=
  scores.insertionSort fun a b => a.2.place ≤ b.2.place

theorem byScore_perm : (byScore scores).Perm scores := List.perm_insertionSort _ _

theorem byScore_ascending :
    (byScore scores).Pairwise fun a b => a.2.place ≤ b.2.place :=
  List.pairwise_insertionSort _ _

/-- What is counted of the scores may be counted of the ordered entries. -/
theorem countP_values {P : Exact → Prop} [DecidablePred P] {Q : String × Exact → Prop}
    [DecidablePred Q] (same : ∀ s ∈ scores, P s.2 ↔ Q s) :
    scores.values.countP (fun s => P s) = (byScore scores).countP fun s => Q s := by
  rw [ScoreMap.values, List.countP_map, byScore_perm.countP_eq]
  refine List.countP_congr fun s listed => ?_
  rw [Function.comp_apply, decide_eq_true_eq, decide_eq_true_eq]
  exact same s listed

include proper

theorem ordered_values : ordered scores.values = .ok ((byScore scores).map Prod.snd) := by
  refine ordered_map Prod.snd (fun s : String × Exact => s.2.place) fun a listed b alsoListed => ?_
  exact congrArg Except.ok
    (decide_eq_decide.mpr (Exact.lt_iff (proper a listed) (proper b alsoListed)))

/-- How many scores are at most, and how many below, the one at a position of the ordered scores. -/
theorem countP_around_position {k : ℕ} {entry : String × Exact}
    (here : (byScore scores)[k]? = some entry) :
    k < scores.values.countP (fun s => s ≤ entry.2) ∧
      scores.values.countP (fun s => s < entry.2) ≤ k := by
  obtain ⟨within, rfl⟩ := List.getElem?_eq_some_iff.mp here
  have limit := proper _ (byScore_perm.mem_iff.mp (List.getElem_mem within))
  constructor
  · refine (lt_countP_le byScore_ascending within).trans_eq (countP_values ?_).symm
    exact fun s listed => Exact.le_iff (proper s listed) limit
  · refine (countP_values ?_).trans_le (countP_lt_le byScore_ascending within)
    exact fun s listed => Exact.lt_iff (proper s listed) limit

end Ordered

theorem checkPercentile_number {p : ℚ} (nonnegative : 0 ≤ p) (atMostOne : p ≤ 1) :
    checkPercentile (Exact.number p) = .ok () := by
  have notBelow : ¬ Exact.number p < .number (0 : ℤ) := by
    rw [Exact.number_lt_number, Int.cast_zero]
    exact nonnegative.not_gt
  have notAbove : ¬ Exact.number (1 : ℤ) < .number p := by
    rw [Exact.number_lt_number, Int.cast_one]
    exact atMostOne.not_gt
  have lower : less (Exact.number p) (ofInt 0) = .ok false :=
    congrArg Except.ok (decide_eq_false notBelow)
  have upper : less (ofInt 1) (Exact.number p) = .ok false :=
    congrArg Except.ok (decide_eq_false notAbove)
  rw [checkPercentile, lower, upper]
  rfl

theorem cutoffRank_number (count : ℕ) (p : ℚ) :
    cutoffRank count (Exact.number p) = .ok ⌈count * p⌉ := by
  change Except.ok ⌈((count : ℤ) : ℚ) * p⌉ = _
  rw [Int.cast_natCast]

/-- The position of a cutoff is one of the positions that there are. -/
theorem ceil_mul_mem_positions {count : ℕ} {p : ℚ} (nonempty : 0 < count) (positive : 0 < p)
    (atMostOne : p ≤ 1) : 0 < ⌈count * p⌉ ∧ ⌈count * p⌉ ≤ count := by
  have many : (0 : ℚ) < count := Nat.cast_pos.mpr nonempty
  constructor
  · exact Int.ceil_pos.mpr (mul_pos many positive)
  · rw [Int.ceil_le, Int.cast_natCast]
    exact mul_le_of_le_one_right many.le atMostOne

/-- A test that never fails keeps what it accepts. -/
theorem filterM_ok {ε ι : Type} (test : ι → Bool) (items : List ι) :
    (items.filterM fun i => (Except.ok (test i) : Except ε Bool)) = .ok (items.filter test) := by
  have collected (kept : List ι) :
      (items.filterAuxM (fun i => (Except.ok (test i) : Except ε Bool)) kept) =
        .ok ((items.filter test).reverse ++ kept) := by
    -- What is kept is gathered in reverse, so the induction is over any gathered part.
    induction items generalizing kept with
    | nil => rfl
    | cons item rest ih =>
        change rest.filterAuxM _ (cond (test item) (item :: kept) kept) = _
        rw [ih]
        cases tested : test item with
        | true => simp [tested]
        | false => simp [tested]
  rw [List.filterM, collected]
  change Except.ok _ = _
  rw [List.append_nil, List.reverse_reverse]

theorem same_zero_of_pos {p : ℚ} (positive : 0 < p) :
    same (Exact.number p) (ofInt 0) = false := by
  rw [Exact.same_number_zero, decide_eq_false positive.ne']

section Cutoff

variable {scores : ScoreMap Exact} (nonempty : scores ≠ [])
  (proper : ∀ s ∈ scores, s.2 ≠ .notANumber) {p : ℚ} (positive : 0 < p) (atMostOne : p ≤ 1)
include nonempty positive atMostOne

theorem belowPercentile_eq_filter {cutoff : Exact}
    (found : percentileCutoff scores (.number p) = .ok cutoff) :
    belowPercentile scores (.number p) = .ok (scores.filter fun s => s.2 < cutoff) := by
  have filled : scores.isEmpty = false := List.isEmpty_eq_false_iff.mpr nonempty
  rw [belowPercentile, checkPercentile_number positive.le atMostOne]
  change (if (_ || _) = true then _ else _) = _
  rw [filled, same_zero_of_pos positive, Bool.or_false, if_neg Bool.false_ne_true, found]
  exact filterM_ok _ _

include proper

/-- The cutoff is the score of the entry at the position that the percentile says. -/
theorem exists_percentileCutoff :
    ∃ entry, (byScore scores)[(⌈scores.length * p⌉ - 1).toNat]? = some entry ∧
      percentileCutoff scores (.number p) = .ok entry.2 := by
  have size : (byScore scores).length = scores.length := byScore_perm.length_eq
  obtain ⟨low, high⟩ :=
    ceil_mul_mem_positions (List.length_pos_of_ne_nil nonempty) positive atMostOne
  have within : (⌈scores.length * p⌉ - 1).toNat < (byScore scores).length := by omega
  have filled : ((byScore scores).map Prod.snd).isEmpty = false := by
    rw [List.isEmpty_map, List.isEmpty_eq_false_iff, ← List.length_pos_iff]
    omega
  refine ⟨_, List.getElem?_eq_getElem within, ?_⟩
  rw [percentileCutoff, checkPercentile_number positive.le atMostOne, ordered_values proper]
  change (if (_ || _) = true then _ else _) = _
  rw [filled, same_zero_of_pos positive, Bool.or_false, if_neg Bool.false_ne_true, List.length_map,
    size, cutoffRank_number]
  change Except.ok (itemAt _ _) = _
  rw [itemAt, List.getD_eq_getElem?_getD, List.getElem?_map, List.getElem?_eq_getElem within]
  rfl

end Cutoff

/-- **What a percentile cuts off.** Let there be scores, all of them numbers or infinite, and let
the percentile be above zero and at most one. Then the position of the cutoff is one of those of the
ordered scores, and the cutoff is the score there. As many scores as the position says, counted from
one, are at most the cutoff, and fewer are below it. So the scores below the percentile, which keep
their order, are a smaller part of all scores than the percentile says, and no score that is left
out is less than one of them. -/
theorem percentileCutoff_rank (scores : ScoreMap Exact) (p : ℚ) (nonempty : scores ≠ [])
    (proper : ∀ s ∈ scores, s.2 ≠ .notANumber) (positive : 0 < p) (atMostOne : p ≤ 1) :
    ∃ (rank : ℤ) (sorted : List Exact) (cutoff : Exact) (below : ScoreMap Exact),
      cutoffRank scores.length (Exact.number p) = .ok rank ∧
      rank = ⌈scores.length * p⌉ ∧ 0 ≤ rank - 1 ∧ rank - 1 ≤ scores.length - 1 ∧
      ordered scores.values = .ok sorted ∧ sorted[(rank - 1).toNat]? = some cutoff ∧
      percentileCutoff scores (.number p) = .ok cutoff ∧ cutoff ∈ scores.values ∧
      rank ≤ scores.values.countP (fun s => s ≤ cutoff) ∧
      scores.values.countP (fun s => s < cutoff) < rank ∧
      belowPercentile scores (.number p) = .ok below ∧
      below = scores.filter (fun s => s.2 < cutoff) ∧
      below.length < scores.length * p ∧
      ∀ left ∈ scores, left ∉ below → ∀ kept ∈ below, kept.2 ≤ left.2 := by
  obtain ⟨low, high⟩ :=
    ceil_mul_mem_positions (List.length_pos_of_ne_nil nonempty) positive atMostOne
  obtain ⟨entry, here, found⟩ := exists_percentileCutoff nonempty proper positive atMostOne
  obtain ⟨atMost, less⟩ := countP_around_position proper here
  have listed : entry ∈ scores := byScore_perm.mem_iff.mp (List.mem_of_getElem? here)
  have size : (scores.filter fun s => s.2 < entry.2).length =
      scores.values.countP fun s => s < entry.2 := by
    rw [ScoreMap.values, List.countP_map, List.countP_eq_length_filter]
    rfl
  refine ⟨_, _, entry.2, _, cutoffRank_number _ _, rfl, by omega, by omega, ordered_values proper,
    ?_, found, List.mem_map_of_mem listed, by omega, by omega,
    belowPercentile_eq_filter nonempty positive atMostOne found, rfl, ?_, ?_⟩
  · rw [List.getElem?_map, here, Option.map_some]
  · rw [size, ← Int.cast_natCast, ← Int.lt_ceil]
    omega
  · intro left among out kept below
    rw [List.mem_filter, decide_eq_true_eq] at out below
    exact Exact.le_of_lt_of_not_lt (proper left among) below.2 fun small => out ⟨among, small⟩

/-- Four scores, two of which are the same and one infinite. -/
def tiedScores : ScoreMap Exact :=
  [("a", .number 3), ("b", .number 1), ("c", .infinity), ("d", .number 3)]

/-- Three quarters of four scores are three, and the third score is one of the two equal ones. -/
theorem percentileCutoff_rank_tiedScores :
    ∃ cutoff below, percentileCutoff tiedScores (.number (3 / 4)) = .ok cutoff ∧
      cutoff = .number 3 ∧ 3 ≤ tiedScores.values.countP (fun s => s ≤ cutoff) ∧
      tiedScores.values.countP (fun s => s < cutoff) < 3 ∧
      belowPercentile tiedScores (.number (3 / 4)) = .ok below ∧ below = [("b", .number 1)] := by
  obtain ⟨rank, sorted, cutoff, below, -, ranked, -, -, -, -, found, -, atMost, less, done, kept,
    -⟩ := percentileCutoff_rank tiedScores (3 / 4) (by decide) (by decide) (by norm_num)
      (by norm_num)
  have third : rank = 3 := ranked.trans (by decide +kernel)
  have evaluated : (percentileCutoff tiedScores (.number (3 / 4))).toOption = some (.number 3) := by
    decide +kernel
  rw [found] at evaluated
  cases evaluated
  refine ⟨_, below, found, rfl, by omega, by omega, done, kept.trans (by decide +kernel)⟩

end SourceAtlas.Analysis
