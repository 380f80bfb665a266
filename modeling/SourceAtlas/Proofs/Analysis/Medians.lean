/-
# Medians of whole numbers

Every signal is a whole number. An arithmetic that compares whole numbers as such puts them in the
order in which they stand by themselves, and that order does not depend on how they were listed.
Nothing else is asked of the arithmetic: how it adds and divides, and whether it rounds or fails on
the way, is left open.
-/

import Mathlib.Data.List.Sort
import SourceAtlas.Analysis.Statistics

namespace SourceAtlas.Analysis

open Arithmetic

section Sorting

variable {α ι β : Type} [Arithmetic α] [LinearOrder β] (value : ι → α) (place : ι → β)

theorem insertOrdered_map {item : ι} {items : List ι}
    (compares : ∀ other ∈ items,
      less (value other) (value item) = .ok (decide (place other < place item))) :
    insertOrdered (value item) (items.map value) =
      .ok ((items.orderedInsert (fun a b => place a ≤ place b) item).map value) := by
  induction items with
  | nil => rfl
  | cons other rest ih =>
      rw [List.forall_mem_cons] at compares
      rw [List.map_cons, insertOrdered, compares.1, ih compares.2, List.orderedInsert_cons]
      by_cases before : place other < place item
      · rw [decide_eq_true before, if_neg (not_le.mpr before)]
        rfl
      · rw [decide_eq_false before, if_pos (not_lt.mp before)]
        rfl

/-- Values that compare as the places of some items do are put in the order of these places. -/
theorem ordered_map {items : List ι}
    (compares : ∀ a ∈ items, ∀ b ∈ items,
      less (value a) (value b) = .ok (decide (place a < place b))) :
    ordered (items.map value) =
      .ok ((items.insertionSort fun a b => place a ≤ place b).map value) := by
  induction items with
  | nil => rfl
  | cons item rest ih =>
      have later := ih fun a listed b alsoListed =>
        compares a (List.mem_cons_of_mem _ listed) b (List.mem_cons_of_mem _ alsoListed)
      rw [ordered] at later
      rw [ordered, List.map_cons, List.foldrM_cons, later]
      refine insertOrdered_map value place fun other listed => ?_
      rw [List.mem_insertionSort] at listed
      exact compares other (List.mem_cons_of_mem _ listed) item List.mem_cons_self

end Sorting

/-- An arithmetic that compares whole numbers as whole numbers. -/
def ComparesIntegers (α : Type) [Arithmetic α] : Prop :=
  ∀ m n : Int, less (ofInt m : α) (ofInt n) = .ok (decide (m < n))

theorem comparesIntegers_number : ComparesIntegers Number := by
  intro m n
  change Except.ok (some (compare m n) == some Ordering.lt) = _
  congr 1
  rw [Bool.eq_iff_iff, beq_iff_eq, Option.some.injEq, decide_eq_true_eq, compare_lt_iff_lt]

variable {α : Type} [Arithmetic α] (compares : ComparesIntegers α)
include compares

theorem ordered_map_ofInt (values : List Int) :
    ordered (values.map ofInt : List α) =
      .ok ((values.insertionSort (· ≤ ·)).map ofInt) :=
  ordered_map ofInt id fun m _ n _ => compares m n

/-- The median of whole numbers does not depend on their order. -/
theorem median_map_ofInt_perm {values others : List Int} (same : others.Perm values) :
    median (others.map ofInt : List α) = median (values.map ofInt) := by
  have sorted : others.insertionSort (· ≤ ·) = values.insertionSort (· ≤ ·) := by
    refine List.Perm.eq_of_pairwise' (List.pairwise_insertionSort _ _)
      (List.pairwise_insertionSort _ _) ?_
    exact (List.perm_insertionSort _ _).trans (same.trans (List.perm_insertionSort _ _).symm)
  have empty : (others.map ofInt : List α).isEmpty = (values.map ofInt : List α).isEmpty := by
    rw [List.isEmpty_map, List.isEmpty_map, same.isEmpty_eq]
  rw [median, median, ordered_map_ofInt compares, ordered_map_ofInt compares, sorted, empty]

end SourceAtlas.Analysis
