/-
# Outliers

The fences stand one and a half times the distance of the outer quarters beyond them, and a score is
an outlier if it lies beyond a fence. Where both quarters are numbers the fences are too. Where the
upper quarter is infinite, the fences are infinite or no number, and there are no outliers.

Two things follow. What lies between the quarters is never an outlier, and this is more than half of
the scores, so that pruning leaves more than it takes. And the fences move with the scores: another
unit, another zero point or another order of the map leaves the outliers as they are.
-/

import SourceAtlas.Proofs.Analysis.Ranks

namespace SourceAtlas.Analysis

open Arithmetic

namespace Exact

/-- A number, or what is greater than every number. -/
def isScore : Exact → Bool
  | .number _ => true
  | .infinity => true
  | .negativeInfinity => false
  | .notANumber => false

/-- How far the fences stand beyond the quarters: one and a half times what lies between the two. -/
def reach (lower upper : Exact) : Exact := (number (3 / 2)).mul (upper.add lower.negate)

/-- Whether a value lies beyond the fences of two quarters. -/
def isBeyond (lower upper value : Exact) : Bool :=
  decide (value < lower.add (reach lower upper).negate) ||
    decide (upper.add (reach lower upper) < value)

variable {lower upper value : Exact}

theorem ne_notANumber_of_isScore (score : value.isScore = true) : value ≠ .notANumber := by
  rintro rfl
  cases score

theorem reach_number_infinity (q : ℚ) : reach (number q) .infinity = .infinity := by
  have positive : SignType.sign (3 / 2 : ℚ) = 1 := sign_pos (by norm_num)
  change infinite (SignType.sign (3 / 2 : ℚ) * 1) = _
  rw [positive]
  rfl

theorem reach_infinity_infinity : reach .infinity .infinity = .notANumber := by
  change infinite (SignType.sign (3 / 2 : ℚ) * 0) = _
  rw [mul_zero]
  rfl

/-- The fences of two numbers are numbers. -/
theorem isBeyond_number (p q : ℚ) (value : Exact) :
    isBeyond (number p) (number q) value = true ↔
      value < number (p - 3 / 2 * (q - p)) ∨ number (q + 3 / 2 * (q - p)) < value := by
  rw [isBeyond, Bool.or_eq_true, decide_eq_true_eq, decide_eq_true_eq, sub_eq_add_neg q p,
    sub_eq_add_neg p]
  rfl

/-- Nothing lies beyond fences that are infinite or no number. -/
theorem isBeyond_infinity (score : lower.isScore = true) (value : Exact) :
    isBeyond lower .infinity value = false := by
  rw [isBeyond, Bool.or_eq_false_iff, decide_eq_false_iff_not, decide_eq_false_iff_not]
  cases lower with
  | number q =>
      rw [reach_number_infinity]
      exact ⟨not_lt_negativeInfinity value, not_infinity_lt value⟩
  | infinity =>
      rw [reach_infinity_infinity]
      exact ⟨fun below => below.2.1 rfl, fun above => above.1 rfl⟩
  | negativeInfinity => cases score
  | notANumber => cases score

/-- **What lies beyond the fences.** Only where both quarters are numbers is there anything beyond
the fences, and then the fences are numbers too. -/
theorem isBeyond_iff (score : lower.isScore = true) (ordered : lower ≤ upper) (value : Exact) :
    isBeyond lower upper value = true ↔
      ∃ p q, lower = .number p ∧ upper = .number q ∧
        (value < .number (p - 3 / 2 * (q - p)) ∨ .number (q + 3 / 2 * (q - p)) < value) := by
  constructor
  · intro beyond
    cases upper with
    | number q =>
        cases lower with
        | number p => exact ⟨p, q, rfl, rfl, (isBeyond_number p q value).mp beyond⟩
        | infinity =>
            have apart : (number q).place < infinity.place :=
              WithBot.coe_lt_coe.mpr (WithTop.coe_lt_top q)
            exact absurd ordered.2.2 apart.not_ge
        | negativeInfinity => cases score
        | notANumber => cases score
    | infinity =>
        rw [isBeyond_infinity score] at beyond
        cases beyond
    | negativeInfinity =>
        cases lower with
        | number p => exact absurd ordered.2.2 (not_le.mpr (WithBot.bot_lt_coe _))
        | infinity => exact absurd ordered.2.2 (not_le.mpr (WithBot.bot_lt_coe _))
        | negativeInfinity => cases score
        | notANumber => cases score
    | notANumber => exact absurd rfl ordered.2.1
  · rintro ⟨p, q, rfl, rfl, beyond⟩
    exact (isBeyond_number p q value).mpr beyond

/-- What lies between the quarters lies between the fences. -/
theorem isBeyond_eq_false_of_between (score : lower.isScore = true) (above : lower ≤ value)
    (below : value ≤ upper) : isBeyond lower upper value = false := by
  have ordered : lower ≤ upper := ⟨above.1, below.2.1, above.2.2.trans below.2.2⟩
  rw [← Bool.not_eq_true, isBeyond_iff score ordered]
  rintro ⟨p, q, rfl, rfl, low | high⟩
  · rw [number_le_number] at ordered
    have fence : number (p - 3 / 2 * (q - p)) ≤ number p := by
      rw [number_le_number]
      linarith
    exact (fence.2.2.trans above.2.2).not_gt low.2.2
  · rw [number_le_number] at ordered
    have fence : number q ≤ number (q + 3 / 2 * (q - p)) := by
      rw [number_le_number]
      linarith
    exact (below.2.2.trans fence.2.2).not_gt high.2.2

end Exact

/-! ## Outliers of a map -/

/-- The lower and the upper quarter of a map of scores. -/
structure IsQuartered (scores : ScoreMap Exact) (lower upper : Exact) : Prop where
  lower_found : percentileCutoff scores (.number (1 / 4)) = .ok lower
  upper_found : percentileCutoff scores (.number (3 / 4)) = .ok upper

theorem ofFraction_eq_number (top : ℤ) (bottom : ℕ) :
    (ofFraction top bottom : Exact) = .number (top / bottom) := rfl

section Quarters

variable {scores : ScoreMap Exact} {lower upper : Exact}

/-- The outliers are what lies beyond the fences of the quarters. -/
theorem IsQuartered.outliers_eq (quartered : IsQuartered scores lower upper) :
    outliers scores = .ok (scores.filter fun s => Exact.isBeyond lower upper s.2) := by
  cases scores with
  | nil => rfl
  | cons first rest =>
      have bounds : outlierBounds (first :: rest) =
          .ok (lower.add (Exact.reach lower upper).negate,
            upper.add (Exact.reach lower upper)) := by
        simp only [outlierBounds, ofFraction_eq_number, Int.cast_one, Int.cast_ofNat,
          Nat.cast_ofNat, quartered.lower_found, quartered.upper_found]
        rfl
      have test (s : String × Exact) :
          (do
            if ← less s.2 (lower.add (Exact.reach lower upper).negate) then return true
            else less (upper.add (Exact.reach lower upper)) s.2) =
          (Except.ok (Exact.isBeyond lower upper s.2) : Except ScoreFault Bool) := by
        by_cases low : s.2 < lower.add (Exact.reach lower upper).negate
        · rw [Exact.isBeyond, decide_eq_true low, Bool.true_or]
          change (if decide _ = true then _ else _) = _
          rw [if_pos (decide_eq_true low)]
          rfl
        · rw [Exact.isBeyond, decide_eq_false low, Bool.false_or]
          change (if decide _ = true then _ else _) = _
          rw [if_neg (by rwa [decide_eq_true_eq])]
          rfl
      rw [outliers, bounds, ← filterM_ok]
      exact congrArg (fun kept => (first :: rest).filterM kept) (funext test)

theorem percentileCutoff_nil {p : ℚ} (nonnegative : 0 ≤ p) (atMostOne : p ≤ 1) :
    percentileCutoff [] (Exact.number p) = .ok .notANumber := by
  rw [percentileCutoff, checkPercentile_number nonnegative atMostOne]
  rfl

/-- Every map of scores has its quarters; those of a map without scores are no numbers. -/
theorem exists_isQuartered (proper : ∀ s ∈ scores, s.2 ≠ .notANumber) :
    ∃ lower upper, IsQuartered scores lower upper := by
  by_cases nonempty : scores = []
  · rw [nonempty]
    exact ⟨.notANumber, .notANumber, percentileCutoff_nil (by norm_num) (by norm_num),
      percentileCutoff_nil (by norm_num) (by norm_num)⟩
  · obtain ⟨low, -, lowFound⟩ := exists_percentileCutoff nonempty proper
      (show (0 : ℚ) < 1 / 4 by norm_num) (by norm_num)
    obtain ⟨high, -, highFound⟩ := exists_percentileCutoff nonempty proper
      (show (0 : ℚ) < 3 / 4 by norm_num) (by norm_num)
    exact ⟨low.2, high.2, lowFound, highFound⟩

/-- What is at most one value is below another or between the two. -/
theorem rank_le_add_countP_between (proper : ∀ s ∈ scores, s.2 ≠ .notANumber)
    (limit : lower ≠ .notANumber) :
    rank scores upper ≤ scores.values.countP (fun s => s < lower) +
      scores.countP fun s => lower ≤ s.2 ∧ s.2 ≤ upper := by
  rw [rank, ScoreMap.values, List.countP_map, List.countP_map,
    List.countP_eq_countP_filter_add scores _ ((fun s => decide (s < lower)) ∘ Prod.snd)]
  apply Nat.add_le_add
  · exact List.countP_le_length.trans_eq List.countP_eq_length_filter.symm
  · rw [List.countP_filter]
    apply List.countP_mono_left
    intro s listed between
    simp only [Function.comp_apply, Bool.and_eq_true, decide_eq_true_eq, Bool.not_eq_true',
      decide_eq_false_iff_not] at between ⊢
    exact ⟨Exact.le_of_not_lt limit (proper s listed) between.2, between.1⟩

section Filled

variable (quartered : IsQuartered scores lower upper) (nonempty : scores ≠ [])
  (proper : ∀ s ∈ scores, s.2 ≠ .notANumber)
include quartered nonempty proper

theorem IsQuartered.exists_lower_entry : ∃ entry ∈ scores, entry.2 = lower :=
  exists_entry_of_percentileCutoff nonempty proper (by norm_num) (by norm_num)
    quartered.lower_found

theorem IsQuartered.exists_upper_entry : ∃ entry ∈ scores, entry.2 = upper :=
  exists_entry_of_percentileCutoff nonempty proper (by norm_num) (by norm_num)
    quartered.upper_found

theorem IsQuartered.lower_le_upper : lower ≤ upper := by
  obtain ⟨low, lowListed, rfl⟩ := quartered.exists_lower_entry nonempty proper
  obtain ⟨high, highListed, rfl⟩ := quartered.exists_upper_entry nonempty proper
  apply Exact.le_of_not_lt (proper low lowListed) (proper high highListed)
  intro crossed
  have few := (lt_cutoff_iff_rank_lt nonempty proper (by norm_num) (by norm_num)
    quartered.lower_found (proper high highListed)).mp crossed
  have many :=
    (rank_around_cutoff nonempty proper (by norm_num) (by norm_num) quartered.upper_found).1
  have filled : (0 : ℚ) < scores.length :=
    Nat.cast_pos.mpr (List.length_pos_of_ne_nil nonempty)
  linarith

/-- More than half of the scores lie between the quarters. -/
theorem IsQuartered.length_lt_two_mul_countP_between :
    scores.length < 2 * scores.countP fun s => lower ≤ s.2 ∧ s.2 ≤ upper := by
  have few :=
    (rank_around_cutoff nonempty proper (by norm_num) (by norm_num) quartered.lower_found).2
  have many :=
    (rank_around_cutoff nonempty proper (by norm_num) (by norm_num) quartered.upper_found).1
  have limit := (quartered.lower_le_upper nonempty proper).1
  have split : (rank scores upper : ℚ) ≤ scores.values.countP (fun s => s < lower) +
      scores.countP fun s => lower ≤ s.2 ∧ s.2 ≤ upper := by
    exact_mod_cast rank_le_add_countP_between proper limit
  have more : (scores.length : ℚ) <
      2 * (scores.countP fun s => lower ≤ s.2 ∧ s.2 ≤ upper : ℕ) := by
    linarith
  exact_mod_cast more

end Filled

end Quarters

/-- Where no key comes twice, taking out the keys of some entries takes out these entries only. -/
theorem filter_not_any_key {scores : ScoreMap Exact} (distinct : (scores.map Prod.fst).Nodup)
    (test : String × Exact → Bool) :
    (scores.filter fun s => !(scores.filter test).any fun o => o.1 == s.1) =
      scores.filter fun s => !test s := by
  apply List.filter_congr
  intro s listed
  rw [Bool.not_inj_iff, Bool.eq_iff_iff, List.any_eq_true]
  constructor
  · rintro ⟨o, removed, same⟩
    obtain ⟨alsoListed, tested⟩ := List.mem_filter.mp removed
    rwa [List.inj_on_of_nodup_map distinct alsoListed listed (eq_of_beq same)] at tested
  · intro tested
    exact ⟨s, List.mem_filter.mpr ⟨listed, tested⟩, beq_self_eq_true _⟩

theorem IsQuartered.withoutOutliers_eq {scores : ScoreMap Exact} {lower upper : Exact}
    (quartered : IsQuartered scores lower upper) (distinct : (scores.map Prod.fst).Nodup) :
    withoutOutliers scores =
      .ok (scores.filter fun s => !Exact.isBeyond lower upper s.2) := by
  rw [withoutOutliers, quartered.outliers_eq, ← filter_not_any_key distinct]
  rfl

section Surviving

variable {scores : ScoreMap Exact} {lower upper : Exact}
  (quartered : IsQuartered scores lower upper) (valued : ∀ s ∈ scores, s.2.isScore = true)
include quartered valued

theorem IsQuartered.lower_isScore (nonempty : scores ≠ []) : lower.isScore = true := by
  obtain ⟨low, listed, rfl⟩ := quartered.exists_lower_entry nonempty
    fun s listed => Exact.ne_notANumber_of_isScore (valued s listed)
  exact valued low listed

/-- An entry between the quarters is left. -/
theorem IsQuartered.mem_kept_of_between {entry : String × Exact} (listed : entry ∈ scores)
    (above : lower ≤ entry.2) (below : entry.2 ≤ upper) :
    entry ∈ scores.filter fun s => !Exact.isBeyond lower upper s.2 := by
  have score := quartered.lower_isScore valued (List.ne_nil_of_mem listed)
  rw [List.mem_filter, Exact.isBeyond_eq_false_of_between score above below]
  exact ⟨listed, rfl⟩

/-- More than half of the entries are left. -/
theorem IsQuartered.length_lt_two_mul_length_kept (nonempty : scores ≠ []) :
    scores.length < 2 * (scores.filter fun s => !Exact.isBeyond lower upper s.2).length := by
  apply (quartered.length_lt_two_mul_countP_between nonempty
    fun s listed => Exact.ne_notANumber_of_isScore (valued s listed)).trans_le
  rw [← List.countP_eq_length_filter]
  apply Nat.mul_le_mul_left
  apply List.countP_mono_left
  intro s listed between
  rw [decide_eq_true_eq] at between
  exact (List.mem_filter.mp
    (quartered.mem_kept_of_between valued listed between.1 between.2)).2

end Surviving

/-- **Pruning takes out the outliers and nothing else.** Let no key come twice, and let all scores
be numbers or infinite. Then the outliers and what is left without them are two parts of the map,
each in its order. The outliers are what lies beyond the fences, which only quarters that are
numbers have. What lies between the quarters is left, at least half of the scores are, and so
something is left if there was anything. -/
theorem outliers_split (scores : ScoreMap Exact) (distinct : (scores.map Prod.fst).Nodup)
    (valued : ∀ s ∈ scores, s.2.isScore = true) :
    ∃ (removed kept : ScoreMap Exact) (lower upper : Exact),
      outliers scores = .ok removed ∧ withoutOutliers scores = .ok kept ∧
      percentileCutoff scores (.number (1 / 4)) = .ok lower ∧
      percentileCutoff scores (.number (3 / 4)) = .ok upper ∧
      removed.Sublist scores ∧ kept.Sublist scores ∧
      removed.Disjoint kept ∧ (removed ++ kept).Perm scores ∧
      (∀ s ∈ scores, s ∈ removed ↔ ∃ p q, lower = .number p ∧ upper = .number q ∧
        (s.2 < .number (p - 3 / 2 * (q - p)) ∨ .number (q + 3 / 2 * (q - p)) < s.2)) ∧
      (∀ s ∈ scores, lower ≤ s.2 → s.2 ≤ upper → s ∈ kept) ∧
      scores.length ≤ 2 * kept.length ∧ (scores ≠ [] → kept ≠ []) := by
  have proper : ∀ s ∈ scores, s.2 ≠ .notANumber := fun s listed =>
    Exact.ne_notANumber_of_isScore (valued s listed)
  obtain ⟨lower, upper, quartered⟩ := exists_isQuartered proper
  refine ⟨_, _, lower, upper, quartered.outliers_eq, quartered.withoutOutliers_eq distinct,
    quartered.lower_found, quartered.upper_found, List.filter_sublist, List.filter_sublist, ?_,
    List.filter_append_perm _ _, ?_, ?_, ?_, ?_⟩
  · intro s removed kept
    have beyond := (List.mem_filter.mp removed).2
    have within := (List.mem_filter.mp kept).2
    rw [beyond] at within
    cases within
  · intro s listed
    have nonempty := List.ne_nil_of_mem listed
    rw [List.mem_filter, ← Exact.isBeyond_iff (quartered.lower_isScore valued nonempty)
      (quartered.lower_le_upper nonempty proper)]
    exact and_iff_right listed
  · intro s listed above below
    exact quartered.mem_kept_of_between valued listed above below
  · by_cases nonempty : scores = []
    · rw [nonempty]
      rfl
    · exact (quartered.length_lt_two_mul_length_kept valued nonempty).le
  · intro nonempty pruned
    have filled := quartered.length_lt_two_mul_length_kept valued nonempty
    rw [pruned, List.length_nil] at filled
    omega

/-- Eight scores, one of which is far above most others and one infinite. -/
def spreadScores : ScoreMap Exact :=
  [("a", .number 1), ("b", .number 9), ("c", .number 2), ("d", .infinity), ("e", .number 2),
    ("f", .number 3), ("g", .number 2), ("h", .number 3)]

/-- The quarters are two and three, so that nine and infinity lie beyond the fences. -/
theorem outliers_split_spreadScores :
    ∃ removed kept, outliers spreadScores = .ok removed ∧
      withoutOutliers spreadScores = .ok kept ∧ (removed ++ kept).Perm spreadScores ∧
      removed = [("b", .number 9), ("d", .infinity)] ∧
      kept.map Prod.fst = ["a", "c", "e", "f", "g", "h"] ∧
      spreadScores.length ≤ 2 * kept.length := by
  have found : (outliers spreadScores).toOption = some [("b", .number 9), ("d", .infinity)] := by
    decide +kernel
  have left : (withoutOutliers spreadScores).toOption.map (List.map Prod.fst) =
      some ["a", "c", "e", "f", "g", "h"] := by
    decide +kernel
  obtain ⟨removed, kept, -, -, outlying, pruned, -, -, -, -, -, parts, -, -, half, -⟩ :=
    outliers_split spreadScores (by decide) (by decide)
  rw [outlying] at found
  rw [pruned] at left
  exact ⟨removed, kept, outlying, pruned, parts, Option.some.inj found, Option.some.inj left, half⟩

/-! ## Another unit, another zero point, another order -/

section Rescaled

variable {scores others : ScoreMap Exact} {f : Exact → Exact} (nonempty : scores ≠ [])
  (proper : ∀ s ∈ scores, s.2 ≠ .notANumber)
  (keepsOrder : ∀ s ∈ scores, ∀ t ∈ scores, f s.2 ≤ f t.2 ↔ s.2 ≤ t.2)
  (moved : others.Perm (scores.map fun s => (s.1, f s.2)))
include keepsOrder moved

/-- Scores that are moved without changing their order keep their ranks. -/
theorem rank_moved {entry : String × Exact} (listed : entry ∈ scores) :
    rank others (f entry.2) = rank scores entry.2 := by
  rw [rank_perm moved, rank, rank, ScoreMap.values, ScoreMap.values, List.map_map, List.countP_map,
    List.countP_map]
  apply List.countP_congr
  intro s alsoListed
  simp only [Function.comp_apply, decide_eq_true_eq]
  exact keepsOrder s alsoListed entry listed

include proper

theorem exists_of_mem_moved {other : String × Exact} (listed : other ∈ others) :
    ∃ s ∈ scores, other.2 = f s.2 ∧ f s.2 ≠ .notANumber := by
  obtain ⟨s, alsoListed, rfl⟩ := List.mem_map.mp (moved.mem_iff.mp listed)
  have self : s.2 ≤ s.2 := ⟨proper s alsoListed, proper s alsoListed, le_rfl⟩
  exact ⟨s, alsoListed, rfl, ((keepsOrder s alsoListed s alsoListed).mpr self).1⟩

include nonempty

/-- The cutoff of moved scores is the cutoff, moved. -/
theorem percentileCutoff_moved {p : ℚ} (positive : 0 < p) (atMostOne : p ≤ 1) {cutoff : Exact}
    (found : percentileCutoff scores (.number p) = .ok cutoff) :
    percentileCutoff others (.number p) = .ok (f cutoff) := by
  have size : others.length = scores.length := by rw [moved.length_eq, List.length_map]
  have alsoNonempty : others ≠ [] := by
    rw [← List.length_pos_iff, size]
    exact List.length_pos_of_ne_nil nonempty
  have alsoProper : ∀ s ∈ others, s.2 ≠ .notANumber := by
    intro s listed
    obtain ⟨t, -, same, valued⟩ := exists_of_mem_moved proper keepsOrder moved listed
    rwa [same]
  obtain ⟨entry, listed, rfl⟩ :=
    exists_entry_of_percentileCutoff nonempty proper positive atMostOne found
  obtain ⟨other, here, alsoFound⟩ :=
    exists_percentileCutoff alsoNonempty alsoProper positive atMostOne
  obtain ⟨s, alsoListed, same, valued⟩ := exists_of_mem_moved proper keepsOrder moved
    (byScore_perm.mem_iff.mp (List.mem_of_getElem? here))
  rw [same] at alsoFound
  rw [alsoFound]
  -- Neither cutoff has a rank as small as what is below the other one.
  have notAbove : ¬ f entry.2 < f s.2 := by
    intro below
    rw [lt_cutoff_iff_rank_lt alsoNonempty alsoProper positive atMostOne alsoFound below.1,
      rank_moved keepsOrder moved listed, size] at below
    exact below.not_ge (rank_around_cutoff nonempty proper positive atMostOne found).1
  have notBelow : ¬ s.2 < entry.2 := by
    intro below
    rw [lt_cutoff_iff_rank_lt nonempty proper positive atMostOne found below.1,
      ← rank_moved keepsOrder moved alsoListed, ← size] at below
    exact below.not_ge
      (rank_around_cutoff alsoNonempty alsoProper positive atMostOne alsoFound).1
  have atMost : f entry.2 ≤ f s.2 := by
    rw [keepsOrder entry listed s alsoListed]
    exact Exact.le_of_not_lt (proper entry listed) (proper s alsoListed) notBelow
  rw [Exact.eq_of_le_of_not_lt atMost notAbove]

/-- The quarters of moved scores are the quarters, moved. -/
theorem IsQuartered.of_moved {lower upper : Exact} (quartered : IsQuartered scores lower upper) :
    IsQuartered others (f lower) (f upper) where
  lower_found := percentileCutoff_moved nonempty proper keepsOrder moved (by norm_num)
    (by norm_num) quartered.lower_found
  upper_found := percentileCutoff_moved nonempty proper keepsOrder moved (by norm_num)
    (by norm_num) quartered.upper_found

end Rescaled

/-- Rational numbers as scores. -/
def ScoreMap.exact (scores : ScoreMap ℚ) : ScoreMap Exact :=
  scores.map fun s => (s.1, .number s.2)

/-- Every score multiplied, and something added to it. -/
def ScoreMap.rescale (a b : ℚ) (scores : ScoreMap ℚ) : ScoreMap ℚ :=
  scores.map fun s => (s.1, a * s.2 + b)

def Exact.rescale (a b : ℚ) (value : Exact) : Exact := ((number a).mul value).add (number b)

theorem ScoreMap.exact_rescale (a b : ℚ) (scores : ScoreMap ℚ) :
    (scores.rescale a b).exact = scores.exact.map fun s => (s.1, s.2.rescale a b) := by
  rw [exact, exact, rescale, List.map_map, List.map_map]
  rfl

theorem ScoreMap.exists_number_of_mem_exact {scores : ScoreMap ℚ} {entry : String × Exact}
    (listed : entry ∈ scores.exact) : ∃ q, entry.2 = .number q := by
  obtain ⟨s, -, rfl⟩ := List.mem_map.mp listed
  exact ⟨s.2, rfl⟩

theorem ScoreMap.ne_notANumber_of_mem_exact (scores : ScoreMap ℚ) :
    ∀ s ∈ scores.exact, s.2 ≠ .notANumber := by
  intro s listed
  obtain ⟨q, same⟩ := exists_number_of_mem_exact listed
  rw [same]
  exact Exact.number_ne_notANumber q

/-- The quarters of rational scores are rational. -/
theorem exists_isQuartered_exact {scores : ScoreMap ℚ} (nonempty : scores ≠ []) :
    ∃ p q, IsQuartered scores.exact (.number p) (.number q) := by
  have proper := scores.ne_notANumber_of_mem_exact
  have filled : scores.exact ≠ [] := fun none => nonempty (List.map_eq_nil_iff.mp none)
  obtain ⟨lower, upper, quartered⟩ := exists_isQuartered proper
  obtain ⟨low, lowListed, rfl⟩ := quartered.exists_lower_entry filled proper
  obtain ⟨high, highListed, rfl⟩ := quartered.exists_upper_entry filled proper
  obtain ⟨p, lowSame⟩ := ScoreMap.exists_number_of_mem_exact lowListed
  obtain ⟨q, highSame⟩ := ScoreMap.exists_number_of_mem_exact highListed
  rw [lowSame, highSame] at quartered
  exact ⟨p, q, quartered⟩

/-- The fences of rescaled numbers are the fences, rescaled. -/
theorem Exact.isBeyond_rescale {a : ℚ} (positive : 0 < a) (b p q r : ℚ) :
    isBeyond ((number p).rescale a b) ((number q).rescale a b) ((number r).rescale a b) =
      isBeyond (number p) (number q) (number r) := by
  have low : a * p + b - 3 / 2 * (a * q + b - (a * p + b)) =
      a * (p - 3 / 2 * (q - p)) + b := by ring
  have high : a * q + b + 3 / 2 * (a * q + b - (a * p + b)) =
      a * (q + 3 / 2 * (q - p)) + b := by ring
  change isBeyond (number (a * p + b)) (number (a * q + b)) (number (a * r + b)) = _
  rw [Bool.eq_iff_iff, isBeyond_number, isBeyond_number, low, high]
  simp only [number_lt_number, add_lt_add_iff_right, mul_lt_mul_iff_right₀ positive]

theorem outliers_rescale {a : ℚ} (positive : 0 < a) (b : ℚ) (scores : ScoreMap ℚ) :
    ∃ beyond moved, outliers scores.exact = .ok beyond ∧
      outliers (scores.rescale a b).exact = .ok moved ∧
      moved.map Prod.fst = beyond.map Prod.fst := by
  by_cases nonempty : scores = []
  · rw [nonempty]
    exact ⟨[], [], rfl, rfl, rfl⟩
  have keepsOrder : ∀ s ∈ scores.exact, ∀ t ∈ scores.exact,
      s.2.rescale a b ≤ t.2.rescale a b ↔ s.2 ≤ t.2 := by
    intro s listed t alsoListed
    obtain ⟨p, first⟩ := ScoreMap.exists_number_of_mem_exact listed
    obtain ⟨q, second⟩ := ScoreMap.exists_number_of_mem_exact alsoListed
    rw [first, second]
    change Exact.number (a * p + b) ≤ .number (a * q + b) ↔ _
    rw [Exact.number_le_number, Exact.number_le_number, add_le_add_iff_right,
      mul_le_mul_iff_right₀ positive]
  obtain ⟨p, q, quartered⟩ := exists_isQuartered_exact nonempty
  have rescaled : IsQuartered (scores.rescale a b).exact ((Exact.number p).rescale a b)
      ((Exact.number q).rescale a b) := by
    apply quartered.of_moved _ scores.ne_notANumber_of_mem_exact keepsOrder
    · rw [ScoreMap.exact_rescale]
    · exact fun none => nonempty (List.map_eq_nil_iff.mp none)
  refine ⟨_, _, quartered.outliers_eq, rescaled.outliers_eq, ?_⟩
  rw [ScoreMap.exact_rescale, List.filter_map, List.map_map]
  apply congrArg (List.map Prod.fst)
  apply List.filter_congr
  intro s listed
  obtain ⟨r, same⟩ := ScoreMap.exists_number_of_mem_exact listed
  rw [Function.comp_apply, same]
  exact Exact.isBeyond_rescale positive b p q r

theorem outliers_perm {scores others : ScoreMap Exact}
    (proper : ∀ s ∈ scores, s.2 ≠ .notANumber) (same : others.Perm scores) :
    ∃ beyond reordered, outliers scores = .ok beyond ∧ outliers others = .ok reordered ∧
      reordered.Perm beyond := by
  by_cases nonempty : scores = []
  · rw [nonempty, List.perm_nil] at same
    rw [nonempty, same]
    exact ⟨[], [], rfl, rfl, .refl _⟩
  obtain ⟨lower, upper, quartered⟩ := exists_isQuartered proper
  have moved : others.Perm (scores.map fun s => (s.1, id s.2)) := by
    rwa [show (fun s : String × Exact => (s.1, id s.2)) = id from rfl, List.map_id]
  have reordered : IsQuartered others lower upper :=
    quartered.of_moved nonempty proper (fun _ _ _ _ => Iff.rfl) moved
  exact ⟨_, _, quartered.outliers_eq, reordered.outliers_eq, same.filter _⟩

/-- **Outliers know neither a unit nor a zero point nor an order.** If every score is multiplied by
a positive number and another number is added to it, the same keys have outliers, and if the scores
come in another order, the same entries are outliers. -/
theorem outliers_rescale_perm (scores : ScoreMap ℚ) (a b : ℚ) (positive : 0 < a) :
    (∃ beyond moved, outliers scores.exact = .ok beyond ∧
      outliers (scores.rescale a b).exact = .ok moved ∧
      moved.map Prod.fst = beyond.map Prod.fst) ∧
    ∀ others : ScoreMap ℚ, others.Perm scores → ∃ beyond reordered,
      outliers scores.exact = .ok beyond ∧ outliers others.exact = .ok reordered ∧
      reordered.Perm beyond := by
  constructor
  · exact outliers_rescale positive b scores
  · intro others same
    exact outliers_perm scores.ne_notANumber_of_mem_exact (same.map _)

/-- Degrees above freezing, one of them far below the others. -/
def coldScores : ScoreMap ℚ := [("a", 10), ("b", 12), ("c", -40), ("d", 11), ("e", 10)]

/-- In another unit with another zero point, in another order, the cold one is the outlier too. -/
theorem outliers_rescale_perm_coldScores :
    (∃ moved, outliers (coldScores.rescale (9 / 5) 32).exact = .ok moved ∧
      moved.map Prod.fst = ["c"]) ∧
    ∃ reordered, outliers (ScoreMap.exact coldScores.reverse) = .ok reordered ∧
      reordered.Perm [("c", .number (-40))] := by
  have found : (outliers coldScores.exact).toOption = some [("c", .number (-40))] := by
    decide +kernel
  obtain ⟨⟨beyond, moved, first, second, keys⟩, keeps⟩ :=
    outliers_rescale_perm coldScores (9 / 5) 32 (by norm_num)
  obtain ⟨again, reordered, third, fourth, perm⟩ :=
    keeps coldScores.reverse (List.reverse_perm _)
  cases first.symm.trans third
  rw [first] at found
  cases found
  exact ⟨⟨moved, second, keys⟩, reordered, fourth, perm⟩

end SourceAtlas.Analysis
