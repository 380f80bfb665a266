/-
# The order in which directories list their entries

Two trees that differ in this order alone hold the same files, and a path leads to the same place in
both.
-/

import SourceAtlas.Proofs.Disk.Shape

namespace SourceAtlas

namespace Entry

/-- Two trees that differ in nothing but the order in which directories list their entries. -/
inductive Relisted : Entry → Entry → Prop
  | file (bytes : List UInt8) : Relisted (.file bytes) (.file bytes)
  | directory {entries others : List (String × Entry)}
      (names : (entries.map Prod.fst).Perm (others.map Prod.fst))
      (inner : ∀ name a b, (name, a) ∈ entries → (name, b) ∈ others → Relisted a b) :
      Relisted (.directory entries) (.directory others)

/-- Such trees are those that are alike with equal bytes. -/
theorem relisted_iff_alike {a b : Entry} : Relisted a b ↔ Alike Eq a b := by
  constructor
  · intro relisted
    induction relisted with
    | file bytes => exact .file rfl
    | directory names _ ih => exact .directory names ih
  · intro alike
    induction alike with
    | file same =>
        rw [same]
        exact .file _
    | directory names _ ih => exact .directory names ih

namespace Relisted

theorem symm {a b : Entry} (relisted : Relisted a b) : Relisted b a := by
  induction relisted with
  | file bytes => exact .file bytes
  | directory names _ ih =>
      exact .directory names.symm fun name a b first second => ih name b a second first

theorem isPlain {a b : Entry} (relisted : Relisted a b) (plain : a.IsPlain) : b.IsPlain :=
  (relisted_iff_alike.mp relisted).isPlain plain

theorem fileAt {entries others : List (String × Entry)} {names : List String}
    (found : FileAt entries names) (relisted : Relisted (.directory entries) (.directory others)) :
    FileAt others names :=
  Alike.fileAt found (relisted_iff_alike.mp relisted)

end Relisted

end Entry

/-- A path leads to entries that differ in nothing but the order of entries either. -/
theorem Disk.find_relisted {disk other : Disk}
    (sameStart : other.workingDirectory = disk.workingDirectory)
    (relisted : Entry.Relisted disk.root other.root) {path : String} {entry : Entry}
    (found : disk.find path = .ok entry) :
    ∃ reached, other.find path = .ok reached ∧ Entry.Relisted entry reached := by
  have alike := find_alike sameStart (Entry.relisted_iff_alike.mp relisted) path
  obtain ⟨reached, alsoFound, same⟩ := alike.exists_eq_ok found
  exact ⟨reached, alsoFound, Entry.relisted_iff_alike.mpr same⟩

end SourceAtlas
