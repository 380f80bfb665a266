/-
# How many paths lead to files

A normal path to a file spells the names at which the file stands, behind one slash or two. So there
are at most twice as many normal paths to files as there are files, and whoever goes from one such
path to the next without coming back has to stop.
-/

import Mathlib.Data.List.Perm.Subperm
import SourceAtlas.Proofs.Disk.Resolving

namespace SourceAtlas

theorem length_filesBeneath (place : String) (entries : List (String × Entry)) :
    (filesBeneath (fun _ => false) place entries).length = (fileNames entries).length := by
  induction entries using fileNames.induct generalizing place with
  | case1 => rw [filesBeneath, fileNames, List.length_nil, List.length_nil]
  | case2 name bytes rest ih =>
      rw [filesBeneath, fileNames, List.length_cons, List.length_cons, ih]
  | case3 name inner rest ihInner ihRest =>
      rw [filesBeneath, fileNames, if_neg Bool.false_ne_true, List.length_append,
        List.length_append, List.length_map, ihInner, ihRest]

namespace Disk

variable {disk : Disk}

/-- A name leads from a directory to what is listed under it, and from a file nowhere. -/
theorem exists_mem_of_followSegment {here : Entry} {above next : List Entry} {name : String}
    (isName : Path.IsName name) (step : followSegment (here :: above) name = .ok next) :
    ∃ entries entry, here = .directory entries ∧ (name, entry) ∈ entries ∧
      next = entry :: here :: above := by
  obtain ⟨entry, rfl⟩ := followSegment_name isName step
  rw [followSegment, if_neg (by simp [isName.nonempty, isName.notHere]),
    if_neg (by simp [isName.notParent])] at step
  cases child : here.child? name with
  | error fault =>
      rw [child] at step
      cases step
  | ok found =>
      rw [child] at step
      cases step
      cases here with
      | file bytes => cases child
      | directory entries =>
          rw [Entry.child?] at child
          split at child
          · split at child
            · rename_i listed
              cases child
              exact ⟨entries, entry, rfl, mem_of_lookup listed, rfl⟩
            · cases child
          · cases child

/-- Names that lead from an entry to a file are names at which the file stands. -/
theorem fileAt_of_follow {names : List String} (all : ∀ s ∈ names, Path.IsName s) {here : Entry}
    {above rest : List Entry} {bytes : List UInt8}
    (followed : follow (here :: above) names = .ok (.file bytes :: rest)) (name : String) :
    FileAt [(name, here)] (name :: names) := by
  induction names generalizing here above name with
  | nil =>
      cases followed
      exact .here List.mem_cons_self
  | cons first later ih =>
      obtain ⟨middle, step, onward⟩ := follow_cons_eq_ok_iff.mp followed
      obtain ⟨entries, entry, rfl, listed, rfl⟩ :=
        exists_mem_of_followSegment (all first List.mem_cons_self) step
      have beneath := ih (fun s among => all s (List.mem_cons_of_mem _ among)) onward first
      apply FileAt.beneath List.mem_cons_self
      exact beneath.mono (List.cons_subset.mpr ⟨listed, List.nil_subset _⟩)

/-- The normal paths at which files may be found. -/
def normalFilePaths (disk : Disk) : List String :=
  (fileNames [("", disk.root)]).flatMap fun names =>
    [Path.rooted 1 names.tail, Path.rooted 2 names.tail]

theorem length_normalFilePaths (disk : Disk) :
    disk.normalFilePaths.length = 2 * disk.fileCount := by
  rw [normalFilePaths, List.length_flatMap, fileCount, length_filesBeneath]
  simp only [List.length_cons, List.length_nil, List.map_const', List.sum_replicate_nat]
  exact Nat.mul_comm _ 2

theorem mem_normalFilePaths {path : String} (normal : Path.IsNormal path)
    (file : disk.isFile path = true) : path ∈ disk.normalFilePaths := by
  have few := Path.leadingSlashes_of_isAbsolute normal.isAbsolute
  have names := Path.isName_normalSegments normal.isAbsolute
  obtain ⟨bytes, above, followed⟩ : ∃ bytes above,
      follow [disk.root] (Path.normalSegments path) = .ok (.file bytes :: above) := by
    rw [isFile] at file
    split at file
    · rename_i bytes found
      exact ⟨bytes, exists_follow_normalSegments normal.isAbsolute found⟩
    · cases file
  have stands := mem_fileNames_iff.mpr (fileAt_of_follow names followed "")
  apply List.mem_flatMap.mpr
  refine ⟨_, stands, ?_⟩
  have spelled := normal.eq_rooted
  rw [List.tail_cons]
  rcases few with one | two
  · rw [one] at spelled
    rw [← spelled]
    exact List.mem_cons_self
  · rw [two] at spelled
    rw [← spelled]
    exact List.mem_cons_of_mem _ List.mem_cons_self

/-- **There are few normal paths to files.** Different ones are at most twice as many as the
files. -/
theorem length_le_of_nodup {paths : List String} (distinct : paths.Nodup)
    (files : ∀ path ∈ paths, Path.IsNormal path ∧ disk.isFile path = true) :
    paths.length ≤ 2 * disk.fileCount := by
  rw [← length_normalFilePaths]
  apply List.Subperm.length_le
  apply distinct.subperm
  intro path listed
  obtain ⟨normal, file⟩ := files path listed
  exact mem_normalFilePaths normal file

end Disk

end SourceAtlas
