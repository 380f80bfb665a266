/-
# Sets of names

A finite set of names, kept as the strictly ascending list of its members, so that two sets with
the same members are equal and a set is written in order without further work.
-/

namespace SourceAtlas

/-- Puts a name into an ascending list unless it is there. -/
def insertName (name : String) : List String → List String
  | [] => [name]
  | other :: rest =>
    if name < other then name :: other :: rest
    else if other < name then other :: insertName name rest
    else other :: rest

/-- Only the new name can be new. -/
theorem eq_or_mem_of_mem_insertName {x name : String} {names : List String}
    (h : x ∈ insertName name names) : x = name ∨ x ∈ names := by
  induction names with
  | nil => simpa [insertName] using h
  | cons other rest ih =>
    unfold insertName at h
    split at h
    · simpa using h
    · split at h
      · rcases List.mem_cons.mp h with h | h
        · exact .inr (by simp [h])
        · rcases ih h with h | h
          · exact .inl h
          · exact .inr (by simp [h])
      · exact .inr h

/-- Insertion keeps a list strictly ascending. -/
theorem pairwise_insertName (name : String) {names : List String}
    (h : names.Pairwise (· < ·)) : (insertName name names).Pairwise (· < ·) := by
  induction names with
  | nil => simp [insertName]
  | cons other rest ih =>
    have ⟨above, tail⟩ := List.pairwise_cons.mp h
    unfold insertName
    split
    · rename_i below
      refine List.pairwise_cons.mpr ⟨fun x hx => ?_, h⟩
      rcases List.mem_cons.mp hx with rfl | hx
      · exact below
      · exact String.lt_trans below (above x hx)
    · split
      · rename_i below
        refine List.pairwise_cons.mpr ⟨fun x hx => ?_, ih tail⟩
        rcases eq_or_mem_of_mem_insertName hx with rfl | hx
        · exact below
        · exact above x hx
      · exact h

/-- A finite set of names. -/
structure NameSet where
  toList : List String
  ascending : toList.Pairwise (· < ·)

namespace NameSet

def empty : NameSet := ⟨[], List.Pairwise.nil⟩

instance : Inhabited NameSet := ⟨empty⟩

def insert (s : NameSet) (name : String) : NameSet :=
  ⟨insertName name s.toList, pairwise_insertName name s.ascending⟩

def ofList (names : List String) : NameSet :=
  names.foldl insert empty

/-- The members of either set. -/
def union (s t : NameSet) : NameSet :=
  t.toList.foldl insert s

end NameSet

end SourceAtlas
