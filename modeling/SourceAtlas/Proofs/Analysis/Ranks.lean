/-
# Percentiles by rank

The rank of a value is how many scores are at most it. A score is below the cutoff of a percentile
exactly if its rank is a smaller part of all scores than the percentile says. This tells which
scores are cut off without putting them in order and without a cutoff, and it covers what is special
in the computation: a percentile of zero and a map without scores cut nothing off. A greater
percentile therefore cuts off what a smaller one does, and the order of the map does not matter.
-/

import SourceAtlas.Proofs.Analysis.Percentiles

namespace SourceAtlas.Analysis

open Arithmetic

/-- How many scores are at most a value. -/
def rank (scores : ScoreMap Exact) (value : Exact) : ℕ :=
  scores.values.countP fun s => s ≤ value

theorem rank_perm {scores others : ScoreMap Exact} (same : others.Perm scores) (value : Exact) :
    rank others value = rank scores value :=
  (same.map Prod.snd).countP_eq _

section Cutoff

variable {scores : ScoreMap Exact} (nonempty : scores ≠ [])
  (proper : ∀ s ∈ scores, s.2 ≠ .notANumber) {p : ℚ} (positive : 0 < p) (atMostOne : p ≤ 1)
  {cutoff : Exact} (found : percentileCutoff scores (.number p) = .ok cutoff)
include nonempty proper positive atMostOne found

/-- The cutoff is one of the scores. -/
theorem exists_entry_of_percentileCutoff : ∃ entry ∈ scores, entry.2 = cutoff := by
  obtain ⟨entry, here, also⟩ := exists_percentileCutoff nonempty proper positive atMostOne
  cases found.symm.trans also
  exact ⟨entry, byScore_perm.mem_iff.mp (List.mem_of_getElem? here), rfl⟩

/-- The scores that are at most the cutoff are at least the part of all scores that the percentile
says, and those below it are less than that. -/
theorem rank_around_cutoff :
    scores.length * p ≤ (rank scores cutoff : ℚ) ∧
      (scores.values.countP (fun s => s < cutoff) : ℚ) < scores.length * p := by
  have position :=
    (ceil_mul_mem_positions (List.length_pos_of_ne_nil nonempty) positive atMostOne).1
  obtain ⟨entry, here, also⟩ := exists_percentileCutoff nonempty proper positive atMostOne
  cases found.symm.trans also
  obtain ⟨atMost, less⟩ := countP_around_position proper here
  constructor
  · rw [← Int.cast_natCast (rank scores entry.2), ← Int.ceil_le, rank]
    omega
  · rw [← Int.cast_natCast, ← Int.lt_ceil]
    omega

/-- **What is below a cutoff.** A value is below the cutoff of a percentile exactly if its rank is a
smaller part of all scores than the percentile says. -/
theorem lt_cutoff_iff_rank_lt {value : Exact} (valued : value ≠ .notANumber) :
    value < cutoff ↔ (rank scores value : ℚ) < scores.length * p := by
  obtain ⟨atMost, less⟩ := rank_around_cutoff nonempty proper positive atMostOne found
  obtain ⟨entry, listed, rfl⟩ :=
    exists_entry_of_percentileCutoff nonempty proper positive atMostOne found
  have limit := proper entry listed
  constructor
  · intro below
    have few : rank scores value ≤ scores.values.countP fun s => s < entry.2 := by
      apply List.countP_mono_left
      intro s _ under
      rw [decide_eq_true_eq] at under ⊢
      exact ⟨under.1, limit, under.2.2.trans_lt below.2.2⟩
    exact (Nat.cast_le.mpr few).trans_lt less
  · intro small
    by_contra above
    rw [Exact.lt_iff valued limit, not_lt] at above
    have many : rank scores entry.2 ≤ rank scores value := by
      apply List.countP_mono_left
      intro s _ under
      rw [decide_eq_true_eq] at under ⊢
      exact ⟨under.1, valued, under.2.2.trans above⟩
    exact small.not_ge (atMost.trans (Nat.cast_le.mpr many))

end Cutoff

section Below

variable {scores : ScoreMap Exact} (proper : ∀ s ∈ scores, s.2 ≠ .notANumber) {p : ℚ}
  (nonnegative : 0 ≤ p) (atMostOne : p ≤ 1)
include proper nonnegative atMostOne

/-- What a percentile cuts off, by the ranks of the scores. -/
theorem belowPercentile_eq_filter_rank :
    belowPercentile scores (.number p) =
      .ok (scores.filter fun s => (rank scores s.2 : ℚ) < scores.length * p) := by
  by_cases nonempty : scores = []
  · rw [nonempty, belowPercentile, checkPercentile_number nonnegative atMostOne, List.isEmpty_nil,
      Bool.or_true]
    rfl
  rcases nonnegative.eq_or_lt with zero | positive
  · have nothing : (scores.filter fun s => (rank scores s.2 : ℚ) < scores.length * p) = [] := by
      rw [List.filter_eq_nil_iff]
      intro s _ below
      rw [← zero, mul_zero, decide_eq_true_eq] at below
      exact below.not_ge (Nat.cast_nonneg _)
    rw [nothing, belowPercentile, checkPercentile_number nonnegative atMostOne,
      Exact.same_number_zero, decide_eq_true zero.symm]
    rfl
  · obtain ⟨entry, -, found⟩ := exists_percentileCutoff nonempty proper positive atMostOne
    rw [belowPercentile_eq_filter nonempty positive atMostOne found]
    apply congrArg Except.ok
    apply List.filter_congr
    intro s listed
    rw [decide_eq_decide]
    exact lt_cutoff_iff_rank_lt nonempty proper positive atMostOne found (proper s listed)

end Below

/-- **Percentiles cut off more and more, whatever the order.** Let all scores be numbers or
infinite, and percentiles be between zero and one. What a percentile cuts off, a greater one cuts
off too. Scores that come in another order have the same entries cut off, namely those whose rank is
a smaller part of all scores than the percentile says. -/
theorem belowPercentile_mono_perm (scores : ScoreMap Exact)
    (proper : ∀ s ∈ scores, s.2 ≠ .notANumber) :
    (∀ p q : ℚ, 0 ≤ p → p ≤ q → q ≤ 1 → ∃ fewer more,
      belowPercentile scores (.number p) = .ok fewer ∧
      belowPercentile scores (.number q) = .ok more ∧ fewer.Sublist more) ∧
    ∀ (p : ℚ) (others : ScoreMap Exact), 0 ≤ p → p ≤ 1 → others.Perm scores → ∃ below reordered,
      belowPercentile scores (.number p) = .ok below ∧
      belowPercentile others (.number p) = .ok reordered ∧ reordered.Perm below ∧
      ∀ s, s ∈ reordered ↔ s ∈ scores ∧ (rank scores s.2 : ℚ) < scores.length * p := by
  constructor
  · intro p q nonnegative atMost atMostOne
    refine ⟨_, _, belowPercentile_eq_filter_rank proper nonnegative (atMost.trans atMostOne),
      belowPercentile_eq_filter_rank proper (nonnegative.trans atMost) atMostOne, ?_⟩
    apply List.monotone_filter_right
    intro s below
    rw [decide_eq_true_eq] at below ⊢
    exact below.trans_le (mul_le_mul_of_nonneg_left atMost (Nat.cast_nonneg _))
  · intro p others nonnegative atMostOne same
    have alsoProper : ∀ s ∈ others, s.2 ≠ .notANumber := fun s listed =>
      proper s (same.mem_iff.mp listed)
    have reordered := belowPercentile_eq_filter_rank alsoProper nonnegative atMostOne
    simp only [rank_perm same, same.length_eq] at reordered
    refine ⟨_, _, belowPercentile_eq_filter_rank proper nonnegative atMostOne, reordered,
      same.filter _, ?_⟩
    intro s
    rw [List.mem_filter, same.mem_iff, decide_eq_true_eq]

/-- Half of the four scores cut off a single one, since the second is tied with the third, and so do
three quarters, in either order; only the whole cuts off the tied ones too. -/
theorem belowPercentile_mono_perm_tiedScores :
    (∃ fewer more, belowPercentile tiedScores (.number (1 / 2)) = .ok fewer ∧
      belowPercentile tiedScores (.number 1) = .ok more ∧ fewer.Sublist more ∧
      fewer = [("b", .number 1)] ∧
      more = [("a", .number 3), ("b", .number 1), ("d", .number 3)]) ∧
    ∃ below reordered, belowPercentile tiedScores (.number (3 / 4)) = .ok below ∧
      belowPercentile tiedScores.reverse (.number (3 / 4)) = .ok reordered ∧
      reordered.Perm below ∧ reordered = [("b", .number 1)] := by
  have halves : (belowPercentile tiedScores (.number (1 / 2))).toOption =
      some [("b", .number 1)] := by decide +kernel
  have all : (belowPercentile tiedScores (.number 1)).toOption =
      some [("a", .number 3), ("b", .number 1), ("d", .number 3)] := by decide +kernel
  have quarters : (belowPercentile tiedScores.reverse (.number (3 / 4))).toOption =
      some [("b", .number 1)] := by decide +kernel
  obtain ⟨grows, keeps⟩ := belowPercentile_mono_perm tiedScores (by decide)
  obtain ⟨fewer, more, first, second, sublist⟩ :=
    grows (1 / 2) 1 (by norm_num) (by norm_num) le_rfl
  obtain ⟨below, reordered, third, fourth, perm, -⟩ :=
    keeps (3 / 4) tiedScores.reverse (by norm_num) (by norm_num) (List.reverse_perm _)
  rw [first] at halves
  rw [second] at all
  rw [fourth] at quarters
  exact ⟨⟨fewer, more, first, second, sublist, Option.some.inj halves, Option.some.inj all⟩,
    below, reordered, third, fourth, perm, Option.some.inj quarters⟩

end SourceAtlas.Analysis
