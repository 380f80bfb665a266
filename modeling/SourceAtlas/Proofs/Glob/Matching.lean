/-
# What matching with wildcards decides

`Fits` says when a row of wanted items fits a row of given ones: a wildcard may end or take one more
item, and anything else takes exactly the item before it. Carrying notes from the end of the given
row to its start decides this relation.
-/

import Mathlib.Data.List.Infix
import SourceAtlas.Glob.Basic

namespace SourceAtlas.Glob

variable {α β : Type} {isWildcard : α → Bool} {accepts : α → β → Bool}

theorem headD_map_tails (note : List α → Bool) (wanted : List α) :
    (wanted.tails.map note).headD false = note wanted := by
  cases wanted <;> rfl

theorem emptyFits_eq_map_tails (wanted : List α) :
    emptyFits isWildcard wanted =
      wanted.tails.map fun rest => (emptyFits isWildcard rest).headD false := by
  induction wanted with
  | nil => rfl
  | cons a rest ih =>
      rw [List.tails_cons, List.map_cons, ← ih]
      rfl

theorem stepFits_eq_map_tails (b : β) (note : List α → Bool) (wanted : List α) :
    stepFits isWildcard accepts b wanted (wanted.tails.map note) =
      wanted.tails.map fun rest =>
        (stepFits isWildcard accepts b rest (rest.tails.map note)).headD false := by
  induction wanted with
  | nil => rfl
  | cons a rest ih =>
      rw [List.tails_cons, List.map_cons, List.map_cons, ← ih]
      rfl

/-- The notes are what they should be: every rest of the wanted row has its own answer. -/
theorem foldr_stepFits_eq_map_tails (wanted : List α) (given : List β) :
    given.foldr (fun b notes => stepFits isWildcard accepts b wanted notes)
        (emptyFits isWildcard wanted) =
      wanted.tails.map fun rest => fits isWildcard accepts rest given := by
  induction given generalizing wanted with
  | nil => exact emptyFits_eq_map_tails wanted
  | cons b given ih =>
      rw [List.foldr_cons, ih, stepFits_eq_map_tails]
      apply List.map_congr_left
      intro rest _
      rw [fits, List.foldr_cons, ih]

theorem fits_nil_nil : fits isWildcard accepts [] [] = true := rfl

theorem fits_nil_cons (b : β) (given : List β) :
    fits isWildcard accepts [] (b :: given) = false := rfl

theorem fits_cons_nil (a : α) (rest : List α) :
    fits isWildcard accepts (a :: rest) [] =
      (isWildcard a && fits isWildcard accepts rest []) := rfl

theorem fits_cons_cons (a : α) (rest : List α) (b : β) (given : List β) :
    fits isWildcard accepts (a :: rest) (b :: given) =
      if isWildcard a then
        fits isWildcard accepts rest (b :: given) || fits isWildcard accepts (a :: rest) given
      else accepts a b && fits isWildcard accepts rest given := by
  have later := headD_map_tails (fun rest => fits isWildcard accepts rest (b :: given)) rest
  rw [← foldr_stepFits_eq_map_tails, List.foldr_cons, foldr_stepFits_eq_map_tails] at later
  rw [fits, List.foldr_cons, foldr_stepFits_eq_map_tails, List.tails_cons, List.map_cons, stepFits,
    List.tail_cons, List.headD_cons, List.headD_cons, later, headD_map_tails]

/-- A row of wanted items fits a row of given ones. -/
inductive Fits (isWildcard : α → Bool) (accepts : α → β → Bool) : List α → List β → Prop
  | nil : Fits isWildcard accepts [] []
  /-- A wildcard takes nothing more. -/
  | skip {a : α} {rest : List α} {given : List β} (wild : isWildcard a = true)
      (fit : Fits isWildcard accepts rest given) : Fits isWildcard accepts (a :: rest) given
  /-- A wildcard takes one more item. -/
  | grow {a : α} {rest : List α} {b : β} {given : List β} (wild : isWildcard a = true)
      (fit : Fits isWildcard accepts (a :: rest) given) :
      Fits isWildcard accepts (a :: rest) (b :: given)
  /-- Anything else takes one item. -/
  | one {a : α} {rest : List α} {b : β} {given : List β} (tame : isWildcard a = false)
      (accepted : accepts a b = true) (fit : Fits isWildcard accepts rest given) :
      Fits isWildcard accepts (a :: rest) (b :: given)

theorem Fits.of_fits {wanted : List α} {given : List β}
    (fit : fits isWildcard accepts wanted given = true) :
    Fits isWildcard accepts wanted given := by
  induction given generalizing wanted with
  | nil =>
      induction wanted with
      | nil => exact .nil
      | cons a rest ih =>
          rw [fits_cons_nil, Bool.and_eq_true] at fit
          exact .skip fit.1 (ih fit.2)
  | cons b given ihGiven =>
      induction wanted with
      | nil =>
          rw [fits_nil_cons] at fit
          cases fit
      | cons a rest ihWanted =>
          rw [fits_cons_cons] at fit
          split at fit
          · rename_i wild
            rcases (Bool.or_eq_true _ _).mp fit with fit | fit
            · exact .skip wild (ihWanted fit)
            · exact .grow wild (ihGiven fit)
          · rename_i tame
            rw [Bool.and_eq_true] at fit
            exact .one (Bool.not_eq_true _ ▸ tame) fit.1 (ihGiven fit.2)

theorem Fits.fits {wanted : List α} {given : List β} (fit : Fits isWildcard accepts wanted given) :
    fits isWildcard accepts wanted given = true := by
  induction fit with
  | nil => exact fits_nil_nil
  | @skip a rest given wild _ ih =>
      cases given with
      | nil => rw [fits_cons_nil, wild, ih]; rfl
      | cons b given => rw [fits_cons_cons, if_pos wild, ih]; rfl
  | grow wild _ ih => rw [fits_cons_cons, if_pos wild, ih, Bool.or_true]
  | one tame accepted _ ih =>
      rw [fits_cons_cons, if_neg (Bool.not_eq_true _ ▸ tame), accepted, ih]
      rfl

/-- **Matching decides the relation.** -/
theorem fits_eq_true_iff {wanted : List α} {given : List β} :
    fits isWildcard accepts wanted given = true ↔ Fits isWildcard accepts wanted given :=
  ⟨Fits.of_fits, Fits.fits⟩

theorem Fits.append {wanted wanted' : List α} {given given' : List β}
    (first : Fits isWildcard accepts wanted given)
    (second : Fits isWildcard accepts wanted' given') :
    Fits isWildcard accepts (wanted ++ wanted') (given ++ given') := by
  induction first with
  | nil => exact second
  | skip wild _ ih => exact .skip wild ih
  | grow wild _ ih => exact .grow wild ih
  | one tame accepted _ ih => exact .one tame accepted ih

theorem Fits.wildcard {a : α} (wild : isWildcard a = true) (given : List β) :
    Fits isWildcard accepts [a] given := by
  induction given with
  | nil => exact .skip wild .nil
  | cons b given ih => exact .grow wild ih

/-- A wildcard before an item that accepts everything fits every row but the empty one. -/
theorem Fits.wildcard_any {a last : α} (wild : isWildcard a = true)
    (tame : isWildcard last = false) (any : ∀ b, accepts last b = true) {given : List β}
    (nonempty : given ≠ []) : Fits isWildcard accepts [a, last] given := by
  have final : Fits isWildcard accepts [last] [given.getLast nonempty] :=
    .one tame (any _) .nil
  have before : Fits isWildcard accepts [a] given.dropLast := .wildcard wild _
  have whole := before.append final
  rw [List.dropLast_concat_getLast] at whole
  exact whole

theorem matchesSegment_star (segment : String) : matchesSegment "*" segment = true :=
  fits_eq_true_iff.mpr (.wildcard rfl _)

theorem matchSegments_append {wanted wanted' parts parts' : List String}
    (first : matchSegments wanted parts = true) (second : matchSegments wanted' parts' = true) :
    matchSegments (wanted ++ wanted') (parts ++ parts') = true :=
  fits_eq_true_iff.mpr ((fits_eq_true_iff.mp first).append (fits_eq_true_iff.mp second))

theorem matchSegments_anything (parts : List String) : matchSegments ["**"] parts = true :=
  fits_eq_true_iff.mpr (.wildcard rfl parts)

theorem matchSegments_anything_beneath {parts : List String} (nonempty : parts ≠ []) :
    matchSegments ["**", "*"] parts = true :=
  fits_eq_true_iff.mpr (.wildcard_any rfl rfl matchesSegment_star nonempty)

end SourceAtlas.Glob
