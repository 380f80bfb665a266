/-
# What is found beneath a directory

`FileAt` says at which names files stand beneath a directory, whatever the order in which the
directories list their entries. A walk that skips directories finds the same files as one that
enters them all, as far as they are kept, if nothing beneath a skipped directory is kept.
-/

import Mathlib.Data.List.Nodup
import SourceAtlas.Disk.Basic
import SourceAtlas.Proofs.Glob.Segments

namespace SourceAtlas

open Glob (PlainName)

/-- A tree as file systems hold them, without slashes and backslashes in its names: no directory
lists a name twice. -/
inductive Entry.IsPlain : Entry → Prop
  | file (bytes : List UInt8) : IsPlain (.file bytes)
  | directory {entries : List (String × Entry)} (distinct : (entries.map Prod.fst).Nodup)
      (named : ∀ entry ∈ entries, PlainName entry.1) (inner : ∀ entry ∈ entries, IsPlain entry.2) :
      IsPlain (.directory entries)

/-- A file stands beneath a directory at the end of a row of names. -/
inductive FileAt : List (String × Entry) → List String → Prop
  | here {entries : List (String × Entry)} {name : String} {bytes : List UInt8}
      (listed : (name, .file bytes) ∈ entries) : FileAt entries [name]
  | beneath {entries inner : List (String × Entry)} {name : String} {names : List String}
      (listed : (name, .directory inner) ∈ entries) (found : FileAt inner names) :
      FileAt entries (name :: names)

theorem FileAt.ne_nil {entries : List (String × Entry)} {names : List String}
    (found : FileAt entries names) : names ≠ [] := by
  cases found <;> exact List.cons_ne_nil _ _

theorem FileAt.mono {entries more : List (String × Entry)} {names : List String}
    (found : FileAt entries names) (listed : entries ⊆ more) : FileAt more names := by
  cases found with
  | here file => exact .here (listed file)
  | beneath directory inner => exact .beneath (listed directory) inner

/-- The first of the names is listed. -/
theorem FileAt.head_mem {entries : List (String × Entry)} {name : String} {names : List String}
    (found : FileAt entries (name :: names)) : name ∈ entries.map Prod.fst := by
  cases found with
  | here file => exact List.mem_map.mpr ⟨_, file, rfl⟩
  | beneath directory inner => exact List.mem_map.mpr ⟨_, directory, rfl⟩

theorem Entry.IsPlain.head {name : String} {entry : Entry} {rest : List (String × Entry)}
    (plain : (Entry.directory ((name, entry) :: rest)).IsPlain) :
    PlainName name ∧ entry.IsPlain := by
  cases plain with
  | directory _ named inner =>
      exact ⟨named _ List.mem_cons_self, inner _ List.mem_cons_self⟩

theorem Entry.IsPlain.cons {name : String} {entry : Entry} {rest : List (String × Entry)}
    (plain : (Entry.directory ((name, entry) :: rest)).IsPlain) :
    name ∉ rest.map Prod.fst ∧ (Entry.directory rest).IsPlain := by
  cases plain with
  | directory distinct named inner =>
      rw [List.map_cons, List.nodup_cons] at distinct
      exact ⟨distinct.1, .directory distinct.2
        (fun other listed => named other (List.mem_cons_of_mem _ listed))
        fun other listed => inner other (List.mem_cons_of_mem _ listed)⟩

/-- Every name beneath an entry has a property. -/
inductive Entry.NamesAre (P : String → Prop) : Entry → Prop
  | file (bytes : List UInt8) : NamesAre P (.file bytes)
  | directory {entries : List (String × Entry)} (named : ∀ entry ∈ entries, P entry.1)
      (inner : ∀ entry ∈ entries, NamesAre P entry.2) : NamesAre P (.directory entries)

/-- The names on the way to a file are names beneath the directory. -/
theorem Entry.NamesAre.of_fileAt {P : String → Prop} {entries : List (String × Entry)}
    {names : List String} (all : (Entry.directory entries).NamesAre P)
    (found : FileAt entries names) : ∀ name ∈ names, P name := by
  induction found with
  | here file =>
      cases all with
      | directory named _ =>
          intro name listed
          rw [List.mem_singleton.mp listed]
          exact named _ file
  | beneath directory _ ih =>
      cases all with
      | directory named inner =>
          intro name listed
          rcases List.mem_cons.mp listed with rfl | listed
          · exact named _ directory
          · exact ih (inner _ directory) name listed

/-- Every file in an entry holds bytes with a property. -/
inductive Entry.FilesAre (P : List UInt8 → Prop) : Entry → Prop
  | file {bytes : List UInt8} (holds : P bytes) : FilesAre P (.file bytes)
  | directory {entries : List (String × Entry)} (inner : ∀ entry ∈ entries, FilesAre P entry.2) :
      FilesAre P (.directory entries)

theorem Entry.IsPlain.namesAre {entry : Entry} (plain : entry.IsPlain) :
    entry.NamesAre PlainName := by
  induction plain with
  | file bytes => exact .file bytes
  | directory _ named _ ih => exact .directory named ih

theorem Entry.IsPlain.plainName {entries : List (String × Entry)} {names : List String}
    (plain : (Entry.directory entries).IsPlain) (found : FileAt entries names) :
    ∀ name ∈ names, PlainName name :=
  plain.namesAre.of_fileAt found

/-- The names at which files stand, in the order in which they are found. -/
def fileNames : List (String × Entry) → List (List String)
  | [] => []
  | (name, .file _) :: rest => [name] :: fileNames rest
  | (name, .directory inner) :: rest => (fileNames inner).map (name :: ·) ++ fileNames rest

theorem not_fileAt_nil {names : List String} : ¬ FileAt [] names := by
  intro found
  cases found <;> contradiction

theorem fileAt_cons_file {name : String} {bytes : List UInt8} {rest : List (String × Entry)}
    {names : List String} :
    FileAt ((name, .file bytes) :: rest) names ↔ [name] = names ∨ FileAt rest names := by
  constructor
  · intro found
    cases found with
    | here listed =>
        rcases List.mem_cons.mp listed with same | listed
        · cases same
          exact .inl rfl
        · exact .inr (.here listed)
    | beneath listed found =>
        rcases List.mem_cons.mp listed with same | listed
        · cases same
        · exact .inr (.beneath listed found)
  · rintro (rfl | found)
    · exact .here List.mem_cons_self
    · exact found.mono (List.subset_cons_self ..)

theorem fileAt_cons_directory {name : String} {inner rest : List (String × Entry)}
    {names : List String} :
    FileAt ((name, .directory inner) :: rest) names ↔
      (∃ below, FileAt inner below ∧ name :: below = names) ∨ FileAt rest names := by
  constructor
  · intro found
    cases found with
    | here listed =>
        rcases List.mem_cons.mp listed with same | listed
        · cases same
        · exact .inr (.here listed)
    | beneath listed found =>
        rcases List.mem_cons.mp listed with same | listed
        · cases same
          exact .inl ⟨_, found, rfl⟩
        · exact .inr (.beneath listed found)
  · rintro (⟨below, found, rfl⟩ | found)
    · exact .beneath List.mem_cons_self found
    · exact found.mono (List.subset_cons_self ..)

theorem mem_fileNames_iff {entries : List (String × Entry)} {names : List String} :
    names ∈ fileNames entries ↔ FileAt entries names := by
  induction entries using fileNames.induct generalizing names with
  | case1 => simp [fileNames, not_fileAt_nil]
  | case2 name bytes rest ih =>
      rw [fileNames, List.mem_cons, ih, fileAt_cons_file, eq_comm]
  | case3 name inner rest ihInner ihRest =>
      rw [fileNames, List.mem_append, List.mem_map, ihRest, fileAt_cons_directory]
      simp only [ihInner]

theorem nodup_fileNames {entries : List (String × Entry)}
    (plain : (Entry.directory entries).IsPlain) : (fileNames entries).Nodup := by
  induction entries using fileNames.induct with
  | case1 =>
      rw [fileNames]
      exact List.nodup_nil
  | case2 name bytes rest ih =>
      obtain ⟨fresh, plainRest⟩ := plain.cons
      rw [fileNames, List.nodup_cons, mem_fileNames_iff]
      exact ⟨fun again => fresh again.head_mem, ih plainRest⟩
  | case3 name inner rest ihInner ihRest =>
      obtain ⟨fresh, plainRest⟩ := plain.cons
      rw [fileNames, List.nodup_append]
      refine ⟨(ihInner plain.head.2).map List.cons_injective, ihRest plainRest, ?_⟩
      rintro _ listed _ again rfl
      obtain ⟨below, -, rfl⟩ := List.mem_map.mp listed
      exact fresh (mem_fileNames_iff.mp again).head_mem

/-- The names above, each with a slash behind it. -/
def pathAbove (above : List String) : String :=
  String.join (above.map (· ++ "/"))

theorem joinSegments_append (above : List String) {names : List String} (nonempty : names ≠ []) :
    Path.joinSegments (above ++ names) = pathAbove above ++ Path.joinSegments names := by
  induction above with
  | nil => simp [pathAbove]
  | cons name rest ih =>
      have more : rest ++ names ≠ [] := List.append_ne_nil_of_right_ne_nil _ nonempty
      rw [List.cons_append, Path.joinSegments, String.intercalate_cons_of_ne_nil more,
        ← Path.joinSegments, ih]
      simp [pathAbove, String.append_assoc]

theorem pathAbove_append_name (above : List String) (name : String) :
    pathAbove above ++ name = Path.joinSegments (above ++ [name]) := by
  rw [joinSegments_append above (List.cons_ne_nil _ _)]
  simp [Path.joinSegments]

theorem pathAbove_append_directory (above : List String) (name : String) :
    pathAbove above ++ name ++ "/" = pathAbove (above ++ [name]) := by
  simp [pathAbove, String.append_assoc]

/-- **Skipping loses nothing that is kept.** Where nothing beneath a skipped directory is kept, a
walk finds all files that are. -/
theorem filter_filesBeneath {skip keep : String → Bool}
    (harmless : ∀ directory beneath : List String,
      (∀ name ∈ directory ++ beneath, PlainName name) → beneath ≠ [] →
      skip (Path.joinSegments directory) = true →
      keep (Path.joinSegments (directory ++ beneath)) = false)
    (above : List String) (plainAbove : ∀ name ∈ above, PlainName name)
    {entries : List (String × Entry)} (plain : (Entry.directory entries).IsPlain) :
    (filesBeneath skip (pathAbove above) entries).filter keep =
      ((fileNames entries).map fun names => Path.joinSegments (above ++ names)).filter keep := by
  induction entries using fileNames.induct generalizing above with
  | case1 => rw [filesBeneath, fileNames, List.map_nil]
  | case2 name bytes rest ih =>
      rw [filesBeneath, fileNames, List.map_cons, pathAbove_append_name, List.filter_cons,
        List.filter_cons, ih above plainAbove plain.cons.2]
  | case3 name inner rest ihInner ihRest =>
      rw [filesBeneath, fileNames, List.map_append, List.filter_append, List.filter_append,
        ihRest above plainAbove plain.cons.2, pathAbove_append_directory, pathAbove_append_name,
        List.map_map]
      congr 1
      have plainHere : ∀ other ∈ above ++ [name], PlainName other := by
        intro other listed
        rcases List.mem_append.mp listed with listed | listed
        · exact plainAbove other listed
        · rw [List.mem_singleton.mp listed]
          exact plain.head.1
      by_cases skipped : skip (Path.joinSegments (above ++ [name])) = true
      · rw [if_pos skipped, List.filter_nil, eq_comm, List.filter_eq_nil_iff]
        intro path listed
        obtain ⟨names, found, rfl⟩ := List.mem_map.mp listed
        rw [mem_fileNames_iff] at found
        have plainBeneath : ∀ other ∈ (above ++ [name]) ++ names, PlainName other := by
          intro other among
          rcases List.mem_append.mp among with among | among
          · exact plainHere other among
          · exact plain.head.2.plainName found other among
        have lost := harmless _ names plainBeneath found.ne_nil skipped
        simpa using lost
      · rw [if_neg skipped, ihInner _ plainHere plain.head.2]
        simp only [Function.comp_def, List.append_assoc, List.singleton_append]

/-- A walk only finds files, whatever it skips. -/
theorem exists_fileAt_of_mem_filesBeneath {skip : String → Bool} (above : List String)
    {entries : List (String × Entry)} {path : String}
    (found : path ∈ filesBeneath skip (pathAbove above) entries) :
    ∃ names, FileAt entries names ∧ path = Path.joinSegments (above ++ names) := by
  induction entries using fileNames.induct generalizing above with
  | case1 =>
      rw [filesBeneath] at found
      cases found
  | case2 name bytes rest ih =>
      rw [filesBeneath, pathAbove_append_name] at found
      rcases List.mem_cons.mp found with rfl | later
      · exact ⟨[name], .here List.mem_cons_self, rfl⟩
      · obtain ⟨names, file, rfl⟩ := ih above later
        exact ⟨names, file.mono (List.subset_cons_self ..), rfl⟩
  | case3 name inner rest ihInner ihRest =>
      rw [filesBeneath, pathAbove_append_directory] at found
      rcases List.mem_append.mp found with within | later
      · split at within
        · cases within
        · obtain ⟨names, file, rfl⟩ := ihInner _ within
          exact ⟨name :: names, .beneath List.mem_cons_self file, by simp⟩
      · obtain ⟨names, file, rfl⟩ := ihRest above later
        exact ⟨names, file.mono (List.subset_cons_self ..), rfl⟩

theorem filesBeneath_cons (skip : String → Bool) (place : String) (entry : String × Entry)
    (rest : List (String × Entry)) :
    filesBeneath skip place (entry :: rest) =
      filesBeneath skip place [entry] ++ filesBeneath skip place rest := by
  obtain ⟨name, entry⟩ := entry
  cases entry <;> simp [filesBeneath]

theorem filesBeneath_eq_flatMap (skip : String → Bool) (place : String)
    (entries : List (String × Entry)) :
    filesBeneath skip place entries =
      entries.flatMap fun entry => filesBeneath skip place [entry] := by
  induction entries with
  | nil => rw [filesBeneath, List.flatMap_nil]
  | cons entry rest ih => rw [filesBeneath_cons, List.flatMap_cons, ← ih]

/-- A walk finds every file none of whose directories it skips. -/
theorem mem_filesBeneath {skip : String → Bool} {entries : List (String × Entry)}
    {names : List String} (file : FileAt entries names) (above : List String)
    (entered : ∀ directory beneath : List String, directory ≠ [] → beneath ≠ [] →
      names = directory ++ beneath → skip (Path.joinSegments (above ++ directory)) = false) :
    Path.joinSegments (above ++ names) ∈ filesBeneath skip (pathAbove above) entries := by
  induction file generalizing above with
  | @here entries name bytes listed =>
      rw [filesBeneath_eq_flatMap, List.mem_flatMap]
      refine ⟨_, listed, ?_⟩
      rw [filesBeneath, pathAbove_append_name]
      exact List.mem_cons_self
  | @beneath entries inner name names listed found ih =>
      have notSkipped := entered [name] names (List.cons_ne_nil _ _) found.ne_nil rfl
      have later := ih (above ++ [name]) fun directory beneath _ more whole => by
        rw [List.append_assoc]
        exact entered (name :: directory) beneath (List.cons_ne_nil _ _) more (by rw [whole]; rfl)
      rw [filesBeneath_eq_flatMap, List.mem_flatMap]
      refine ⟨_, listed, ?_⟩
      rw [filesBeneath, pathAbove_append_directory, pathAbove_append_name, notSkipped]
      exact List.mem_append_left _ (by simpa using later)

/-! ## Following a path -/

theorem mem_of_lookup {κ α : Type} [BEq κ] [LawfulBEq κ] {entries : List (κ × α)} {name : κ}
    {entry : α} (found : entries.lookup name = some entry) : (name, entry) ∈ entries := by
  obtain ⟨before, after, rfl, -⟩ := List.lookup_eq_some_iff.mp found
  simp

namespace Disk

/-- A segment leads nowhere else, back to the directory above, or to an entry of the directory. -/
theorem followSegment_cases {trail next : List Entry} {segment : String}
    (step : followSegment trail segment = .ok next) :
    next = trail ∨ (∃ here, trail = here :: next) ∨
      ∃ here above entry, trail = here :: above ∧ here.child? segment = .ok entry ∧
        next = entry :: trail := by
  cases trail with
  | nil => cases step
  | cons here above =>
      rw [followSegment] at step
      split at step
      · split at step
        · cases step
          exact .inl rfl
        · cases step
      · split at step
        · split at step
          · cases step
            split
            · exact .inl rfl
            · exact .inr (.inl ⟨here, rfl⟩)
          · cases step
        · cases child : here.child? segment with
          | error fault =>
              rw [child] at step
              cases step
          | ok entry =>
              rw [child] at step
              cases step
              exact .inr (.inr ⟨here, above, entry, rfl, child, rfl⟩)

theorem follow_cons_eq_ok_iff {trail next : List Entry} {segment : String}
    {rest : List String} :
    follow trail (segment :: rest) = .ok next ↔
      ∃ middle, followSegment trail segment = .ok middle ∧ follow middle rest = .ok next := by
  rw [follow, List.foldlM_cons]
  cases stepped : followSegment trail segment with
  | error fault =>
      constructor
      · intro followed
        cases followed
      · rintro ⟨middle, absurd, -⟩
        cases absurd
  | ok middle =>
      constructor
      · intro followed
        exact ⟨middle, rfl, followed⟩
      · rintro ⟨_, same, followed⟩
        cases same
        exact followed

/-- What a path leads to stands at the head of the trail. -/
theorem find_eq_ok_iff {disk : Disk} {path : String} {entry : Entry} :
    disk.find path = .ok entry ↔ path ≠ "" ∧ ∃ above,
      follow [disk.root] (Path.rawSegments (disk.fromRoot path)) = .ok (entry :: above) := by
  by_cases empty : path = ""
  · subst empty
    constructor
    · intro found
      cases found
    · rintro ⟨absurd, -⟩
      exact (absurd rfl).elim
  · rw [find, if_neg (by simpa using empty)]
    cases follow [disk.root] (Path.rawSegments (disk.fromRoot path)) with
    | error fault =>
        constructor
        · intro found
          cases found
        · rintro ⟨-, above, absurd⟩
          cases absurd
    | ok trail =>
        constructor
        · intro found
          cases trail with
          | nil => cases found
          | cons here above =>
              cases found
              exact ⟨empty, above, rfl⟩
        · rintro ⟨-, above, same⟩
          cases same
          rfl

/-- Where the segments of a path are known, it is enough to follow them. -/
theorem find_of_follow {disk : Disk} {path : String} {segments : List String} {entry : Entry}
    {above : List Entry} (nonempty : path ≠ "")
    (raw : Path.rawSegments (disk.fromRoot path) = segments)
    (followed : follow [disk.root] segments = .ok (entry :: above)) :
    disk.find path = .ok entry := by
  apply find_eq_ok_iff.mpr
  rw [raw]
  exact ⟨nonempty, above, followed⟩

section Hereditary

-- What holds of a directory holds of its entries.
variable {P : Entry → Prop}
  (hereditary : ∀ entries, P (.directory entries) → ∀ entry ∈ entries, P entry.2)
include hereditary

theorem child?_of_hereditary {here entry : Entry} {name : String} (holds : P here)
    (child : here.child? name = .ok entry) : P entry := by
  cases here with
  | file bytes => cases child
  | directory entries =>
      rw [Entry.child?] at child
      split at child
      · split at child
        · rename_i found
          cases child
          exact hereditary entries holds (name, entry) (mem_of_lookup found)
        · cases child
      · cases child

theorem followSegment_of_hereditary {trail next : List Entry} {segment : String}
    (holds : ∀ entry ∈ trail, P entry) (step : followSegment trail segment = .ok next) :
    ∀ entry ∈ next, P entry := by
  rcases followSegment_cases step with rfl | ⟨here, rfl⟩ | ⟨here, above, entry, rfl, child, rfl⟩
  · exact holds
  · exact fun entry reached => holds entry (List.mem_cons_of_mem _ reached)
  · intro other reached
    rcases List.mem_cons.mp reached with rfl | reached
    · exact child?_of_hereditary hereditary (holds here List.mem_cons_self) child
    · exact holds other reached

theorem follow_of_hereditary {segments : List String} {trail next : List Entry}
    (holds : ∀ entry ∈ trail, P entry) (steps : follow trail segments = .ok next) :
    ∀ entry ∈ next, P entry := by
  induction segments generalizing trail with
  | nil =>
      cases steps
      exact holds
  | cons segment rest ih =>
      obtain ⟨middle, stepped, later⟩ := follow_cons_eq_ok_iff.mp steps
      exact ih (followSegment_of_hereditary hereditary holds stepped) later

/-- What holds of the root holds wherever a path leads. -/
theorem find_of_hereditary {disk : Disk} (holds : P disk.root) {path : String} {entry : Entry}
    (found : disk.find path = .ok entry) : P entry := by
  obtain ⟨-, above, followed⟩ := find_eq_ok_iff.mp found
  exact follow_of_hereditary hereditary (by simpa using holds) followed entry List.mem_cons_self

end Hereditary

/-- On a plain disk every path leads to a plain tree. -/
theorem isPlain_find {disk : Disk} (plain : disk.root.IsPlain) {path : String} {entry : Entry}
    (found : disk.find path = .ok entry) : entry.IsPlain := by
  refine find_of_hereditary (fun entries whole => ?_) plain found
  cases whole with
  | directory _ _ inner => exact inner

theorem namesAre_find {P : String → Prop} {disk : Disk} (all : disk.root.NamesAre P)
    {path : String} {entry : Entry} (found : disk.find path = .ok entry) : entry.NamesAre P := by
  refine find_of_hereditary (fun entries whole => ?_) all found
  cases whole with
  | directory _ inner => exact inner

theorem readBytes_of_filesAre {P : List UInt8 → Prop} {disk : Disk} (all : disk.root.FilesAre P)
    {path : String} {bytes : List UInt8} (read : disk.readBytes path = .ok bytes) : P bytes := by
  rw [readBytes] at read
  split at read
  · rename_i found
    cases read
    have file := find_of_hereditary (fun entries whole => by
      cases whole with
      | directory inner => exact inner) all found
    cases file with
    | file holds => exact holds
  · cases read
  · cases read

end Disk

end SourceAtlas
