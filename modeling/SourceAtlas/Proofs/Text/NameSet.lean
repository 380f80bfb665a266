/-
# The laws of sets of names

A set of names is determined by its members. A union has the members of both sides, so it does not
matter how unions are grouped or how often a set takes part.
-/

import Mathlib.Data.List.Basic
import SourceAtlas.Text.NameSet

namespace SourceAtlas

theorem mem_insertName_iff {x name : String} {names : List String} :
    x ∈ insertName name names ↔ x = name ∨ x ∈ names := by
  induction names with
  | nil => simp [insertName]
  | cons other rest ih =>
      rw [insertName]
      split
      · simp
      · split
        · simp [ih, or_left_comm]
        · rename_i not_below not_above
          have same : name = other := String.le_antisymm not_above not_below
          simp [same]

namespace NameSet

theorem nodup (s : NameSet) : s.toList.Nodup :=
  s.ascending.imp fun below => String.ne_of_lt below

theorem ext {s t : NameSet} (same : ∀ name, name ∈ s.toList ↔ name ∈ t.toList) : s = t := by
  have perm : s.toList.Perm t.toList := (List.perm_ext_iff_of_nodup s.nodup t.nodup).mpr same
  obtain ⟨first, first_ascending⟩ := s
  obtain ⟨second, second_ascending⟩ := t
  have equal : first = second :=
    perm.eq_of_pairwise (fun _ _ _ _ below above => absurd above (String.lt_asymm below))
      first_ascending second_ascending
  subst equal
  rfl

@[simp]
theorem mem_insert {s : NameSet} {x name : String} :
    x ∈ (s.insert name).toList ↔ x = name ∨ x ∈ s.toList :=
  mem_insertName_iff

theorem mem_foldl_insert {s : NameSet} {names : List String} {x : String} :
    x ∈ (names.foldl insert s).toList ↔ x ∈ s.toList ∨ x ∈ names := by
  induction names generalizing s with
  | nil => simp
  | cons name rest ih =>
      rw [List.foldl_cons, ih, mem_insert, List.mem_cons, or_assoc, or_left_comm]

@[simp]
theorem mem_ofList {names : List String} {x : String} :
    x ∈ (ofList names).toList ↔ x ∈ names := by
  rw [ofList, mem_foldl_insert]
  simp [empty]

@[simp]
theorem mem_union {s t : NameSet} {x : String} :
    x ∈ (s.union t).toList ↔ x ∈ s.toList ∨ x ∈ t.toList :=
  mem_foldl_insert

theorem union_self (s : NameSet) : s.union s = s :=
  ext fun _ => by rw [mem_union, or_self]

theorem union_assoc (s t u : NameSet) : (s.union t).union u = s.union (t.union u) :=
  ext fun _ => by simp only [mem_union, or_assoc]

end NameSet

end SourceAtlas
