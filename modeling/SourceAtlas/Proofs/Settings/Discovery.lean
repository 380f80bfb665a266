/-
# Exactly which files are scanned

A file is scanned if it stands beneath the root and passes a test of its own path; the directories
above it are never asked. Directories that are not entered hold no such file, and the order in which
directories list their entries leaves no trace in the result.
-/

import Mathlib.Data.List.Sort
import Mathlib.Data.String.Basic
import SourceAtlas.Proofs.Disk.Normal
import SourceAtlas.Proofs.Disk.Relisting
import SourceAtlas.Settings.Discovery

namespace SourceAtlas.Settings

open Glob (PlainName)

/-- A path relative to the root passes the test of a file. -/
structure Selected (options : Options) (config : Option CompilerConfig) (path : String) : Prop where
  notDeclaration : path.endsWith ".d.ts" = false
  /-- Where the configuration says what is included, the language has to be known. -/
  known : options.filePatterns = [] → (∃ c, config = some c ∧ c.included ≠ []) →
    Grammar.isSourcePath path = true
  included : ∃ pattern ∈ (selection options config).included, Glob.isMatch pattern path = true
  notIgnored : ∀ pattern ∈ (selection options config).ignored, Glob.isMatch pattern path = false

/-- A file stands beneath the root and passes the test. -/
def IsScanned (disk : Disk) (root : String) (options : Options) (config : Option CompilerConfig)
    (path : String) : Prop :=
  ∃ entries names, disk.find (disk.absolutePath root) = .ok (.directory entries) ∧
    FileAt entries names ∧ Selected options config (Path.joinSegments names) ∧
    path = Path.join (disk.absolutePath root) (Path.joinSegments names)

variable {options : Options} {config : Option CompilerConfig}

theorem selection_knownOnly_iff :
    (selection options config).knownOnly = true ↔
      options.filePatterns = [] ∧ ∃ c, config = some c ∧ c.included ≠ [] := by
  cases given : options.filePatterns with
  | cons pattern rest => simp [selection, includedPatterns, given]
  | nil =>
      cases config with
      | none => simp [selection, includedPatterns, given]
      | some c =>
          cases entries : c.included <;> simp [selection, includedPatterns, given, entries]

theorem keeps_eq_true_iff {path : String} :
    (selection options config).keeps path = true ↔ Selected options config path := by
  rw [Selection.keeps]
  simp only [Bool.and_eq_true, Bool.or_eq_true, Bool.not_eq_true', Glob.matchesAny,
    List.any_eq_true, List.any_eq_false, Bool.not_eq_true]
  constructor
  · rintro ⟨⟨⟨notDeclaration, known⟩, included⟩, notIgnored⟩
    refine ⟨notDeclaration, ?_, included, notIgnored⟩
    intro noPatterns entries
    rcases known with unrestricted | known
    · rw [selection_knownOnly_iff.mpr ⟨noPatterns, entries⟩] at unrestricted
      cases unrestricted
    · exact known
  · intro selected
    refine ⟨⟨⟨selected.notDeclaration, ?_⟩, selected.included⟩, selected.notIgnored⟩
    by_cases restricted : (selection options config).knownOnly = true
    · obtain ⟨noPatterns, entries⟩ := selection_knownOnly_iff.mp restricted
      exact .inr (selected.known noPatterns entries)
    · exact .inl (Bool.not_eq_true _ ▸ restricted)

/-- Nothing beneath a directory that is not entered passes the test. -/
theorem keeps_beneath_ignored (s : Selection) {directory path : String} {below : List String}
    (more : below ≠ []) (parts : Glob.segments path = Glob.segments directory ++ below)
    (skipped : Glob.ignoresDirectory s.ignored directory = true) : s.keeps path = false := by
  rw [Selection.keeps, Glob.matchesAny_of_ignoresDirectory more parts skipped, Bool.not_true,
    Bool.and_false]

theorem isAbsolute_joinSegments {names : List String} (plain : ∀ name ∈ names, PlainName name) :
    Path.isAbsolute (Path.joinSegments names) = false :=
  Path.not_isAbsolute_joinSegments fun name listed =>
    ⟨(plain name listed).nonempty, (plain name listed).slashless⟩

/-- From one base, different relative paths lead to different places. -/
theorem join_injective {base first second : String} (relative : Path.isAbsolute first = false)
    (alsoRelative : Path.isAbsolute second = false)
    (same : Path.join base first = Path.join base second) : first = second := by
  simp only [Path.join, relative, alsoRelative, Bool.false_eq_true, if_false] at same
  split at same
  · exact (String.append_right_inj base).mp same
  · exact (String.append_right_inj _).mp same

theorem joinSegments_injective {first second : List String}
    (plain : ∀ name ∈ first, PlainName name) (alsoPlain : ∀ name ∈ second, PlainName name)
    (same : Path.joinSegments first = Path.joinSegments second) : first = second := by
  rw [← Glob.segments_joinSegments plain, same, Glob.segments_joinSegments alsoPlain]

variable {disk : Disk} {root : String}

/-- The relative paths that are scanned, in the order in which they are found. -/
def scannedNames (options : Options) (config : Option CompilerConfig)
    (entries : List (String × Entry)) : List String :=
  ((fileNames entries).map Path.joinSegments).filter (selection options config).keeps

theorem mem_scannedNames_iff {entries : List (String × Entry)} {path : String} :
    path ∈ scannedNames options config entries ↔
      ∃ names, FileAt entries names ∧ Selected options config (Path.joinSegments names) ∧
        path = Path.joinSegments names := by
  rw [scannedNames, List.mem_filter, List.mem_map, keeps_eq_true_iff]
  constructor
  · rintro ⟨⟨names, found, rfl⟩, selected⟩
    exact ⟨names, mem_fileNames_iff.mp found, selected, rfl⟩
  · rintro ⟨names, found, selected, rfl⟩
    exact ⟨⟨names, mem_fileNames_iff.mpr found, rfl⟩, selected⟩

theorem nodup_scannedNames {entries : List (String × Entry)}
    (plain : (Entry.directory entries).IsPlain) : (scannedNames options config entries).Nodup := by
  refine List.Nodup.filter _ (List.Nodup.map_on ?_ (nodup_fileNames plain))
  intro first found second alsoFound same
  exact joinSegments_injective (plain.plainName (mem_fileNames_iff.mp found))
    (plain.plainName (mem_fileNames_iff.mp alsoFound)) same

/-- Entering every directory would give the same files. -/
theorem filter_filesBelow {entries : List (String × Entry)}
    (found : disk.find (disk.absolutePath root) = .ok (.directory entries))
    (plain : (Entry.directory entries).IsPlain) :
    (disk.filesBelow (Glob.ignoresDirectory (selection options config).ignored)
        (disk.absolutePath root)).filter (selection options config).keeps =
      scannedNames options config entries := by
  rw [Disk.filesBelow, found]
  refine filter_filesBeneath ?_ [] (List.forall_mem_nil _) plain
  intro directory beneath named more skipped
  refine keeps_beneath_ignored _ more ?_ skipped
  rw [Glob.segments_joinSegments named, Glob.segments_joinSegments fun name listed =>
    named name (List.mem_append_left _ listed)]

/-- What is discovered, as a list that needs no walk with directories left out. -/
theorem discover_perm {entries : List (String × Entry)}
    (found : disk.find (disk.absolutePath root) = .ok (.directory entries))
    (plain : (Entry.directory entries).IsPlain) :
    (discover disk root options config).Perm
      ((scannedNames options config entries).map (Path.join (disk.absolutePath root))) := by
  rw [discover, filter_filesBelow found plain]
  exact List.mergeSort_perm _ _

/-- Beneath anything but a directory nothing is discovered. -/
theorem discover_eq_nil
    (absent : ∀ entries, disk.find (disk.absolutePath root) ≠ .ok (.directory entries)) :
    discover disk root options config = [] := by
  have nothing (skip : String → Bool) : disk.filesBelow skip (disk.absolutePath root) = [] := by
    rw [Disk.filesBelow]
    split
    · rename_i entries found
      exact absurd found (absent entries)
    · rfl
  rw [discover, nothing, List.filter_nil, List.map_nil, List.mergeSort_nil]

/-- What is discovered is the path of a file that is kept, whatever the names of the disk are. -/
theorem exists_fileAt_of_mem_discover {path : String}
    (discovered : path ∈ discover disk root options config) :
    ∃ entries names, disk.find (disk.absolutePath root) = .ok (.directory entries) ∧
      FileAt entries names ∧
      path = Path.join (disk.absolutePath root) (Path.joinSegments names) ∧
      (selection options config).keeps (Path.joinSegments names) = true := by
  rw [discover, (List.mergeSort_perm _ _).mem_iff] at discovered
  obtain ⟨relative, listed, rfl⟩ := List.mem_map.mp discovered
  obtain ⟨found, kept⟩ := List.mem_filter.mp listed
  rw [Disk.filesBelow] at found
  split at found
  · rename_i entries there
    obtain ⟨names, file, rfl⟩ := exists_fileAt_of_mem_filesBeneath [] found
    exact ⟨entries, names, there, file, rfl, kept⟩
  · cases found

theorem pairwise_le_discover (disk : Disk) (root : String) (options : Options)
    (config : Option CompilerConfig) : (discover disk root options config).Pairwise (· ≤ ·) := by
  refine List.Pairwise.imp (fun {_ _} => of_decide_eq_true) (List.pairwise_mergeSort ?_ ?_ _)
  · intro a b c first second
    rw [decide_eq_true_eq] at first second ⊢
    exact le_trans first second
  · intro a b
    rw [Bool.or_eq_true, decide_eq_true_eq, decide_eq_true_eq]
    exact le_total a b

/-- The tree beneath the root is plain. -/
def PlainBeneath (disk : Disk) (root : String) : Prop :=
  ∀ tree, disk.find (disk.absolutePath root) = .ok tree → tree.IsPlain

theorem nodup_discover (plain : PlainBeneath disk root) :
    (discover disk root options config).Nodup := by
  by_cases somewhere : ∃ entries, disk.find (disk.absolutePath root) = .ok (.directory entries)
  · obtain ⟨entries, found⟩ := somewhere
    have plainTree := plain _ found
    rw [(discover_perm found plainTree).nodup_iff]
    refine List.Nodup.map_on ?_ (nodup_scannedNames plainTree)
    have relative {path : String} (scanned : path ∈ scannedNames options config entries) :
        Path.isAbsolute path = false := by
      obtain ⟨names, file, -, rfl⟩ := mem_scannedNames_iff.mp scanned
      exact isAbsolute_joinSegments (plainTree.plainName file)
    intro first scanned second alsoScanned same
    exact join_injective (relative scanned) (relative alsoScanned) same
  · push Not at somewhere
    rw [discover_eq_nil somewhere]
    exact List.nodup_nil

theorem pairwise_lt_discover (plain : PlainBeneath disk root) :
    (discover disk root options config).Pairwise (· < ·) :=
  ((pairwise_le_discover disk root options config).and (nodup_discover plain)).imp
    fun both => lt_of_le_of_ne both.1 both.2

theorem mem_discover_iff (plain : PlainBeneath disk root) {path : String} :
    path ∈ discover disk root options config ↔ IsScanned disk root options config path := by
  constructor
  · intro discovered
    by_cases somewhere : ∃ entries, disk.find (disk.absolutePath root) = .ok (.directory entries)
    · obtain ⟨entries, found⟩ := somewhere
      rw [(discover_perm found (plain _ found)).mem_iff, List.mem_map] at discovered
      obtain ⟨_, scanned, rfl⟩ := discovered
      obtain ⟨names, file, selected, rfl⟩ := mem_scannedNames_iff.mp scanned
      exact ⟨entries, names, found, file, selected, rfl⟩
    · push Not at somewhere
      rw [discover_eq_nil somewhere] at discovered
      cases discovered
  · rintro ⟨entries, names, found, file, selected, rfl⟩
    rw [(discover_perm found (plain _ found)).mem_iff, List.mem_map]
    exact ⟨_, mem_scannedNames_iff.mpr ⟨names, file, selected, rfl⟩, rfl⟩

section Order

variable {other : Disk}

theorem PlainBeneath.relisted (plain : PlainBeneath disk root)
    (sameStart : other.workingDirectory = disk.workingDirectory)
    (relisted : Entry.Relisted disk.root other.root) : PlainBeneath other root := by
  intro tree found
  obtain ⟨original, alsoFound, same⟩ := Disk.find_relisted sameStart.symm relisted.symm found
  rw [Disk.absolutePath, sameStart] at alsoFound
  exact same.symm.isPlain (plain original alsoFound)

theorem IsScanned.relisted {path : String} (scanned : IsScanned disk root options config path)
    (sameStart : other.workingDirectory = disk.workingDirectory)
    (relisted : Entry.Relisted disk.root other.root) :
    IsScanned other root options config path := by
  obtain ⟨entries, names, found, file, selected, rfl⟩ := scanned
  obtain ⟨tree, alsoFound, same⟩ := Disk.find_relisted sameStart relisted found
  have sameTop : other.absolutePath root = disk.absolutePath root := by
    rw [Disk.absolutePath, Disk.absolutePath, sameStart]
  cases same with
  | directory listed inner =>
      refine ⟨_, names, ?_, Entry.Relisted.fileAt file (.directory listed inner), selected, ?_⟩
      · rw [sameTop]
        exact alsoFound
      · rw [sameTop]

end Order

/-- **Exactly the files that pass the test of a file are scanned.** The names beneath the root
contain neither slash nor backslash, and no directory holds the empty name, itself or a name twice.
What is discovered is in order and without repetition, it is what passes the test beneath the root
although ignored directories are not entered, and it would be the same if the directories of the
disk listed their entries in another order. -/
theorem discover_exact (disk : Disk) (root : String) (options : Options)
    (config : Option CompilerConfig) (plain : PlainBeneath disk root) :
    (discover disk root options config).Pairwise (· < ·) ∧
      (∀ path, path ∈ discover disk root options config ↔
        IsScanned disk root options config path) ∧
      ∀ other : Disk, other.workingDirectory = disk.workingDirectory →
        Entry.Relisted disk.root other.root →
        discover other root options config = discover disk root options config := by
  refine ⟨pairwise_lt_discover plain, fun path => mem_discover_iff plain, ?_⟩
  intro other sameStart relisted
  have plainOther := plain.relisted sameStart relisted
  apply (pairwise_lt_discover plainOther).eq_of_mem_iff (pairwise_lt_discover plain)
  intro path
  rw [mem_discover_iff plainOther, mem_discover_iff plain]
  exact ⟨fun scanned => scanned.relisted sameStart.symm relisted.symm,
    fun scanned => scanned.relisted sameStart relisted⟩

/-- A disk with two source files, a file that only declares types, and a directory that is
ignored. -/
def smallDisk : Disk where
  root := .directory
    [("app", .directory
      [ ("src", .directory [("b.ts", .file []), ("a.tsx", .file []), ("types.d.ts", .file [])]),
        ("dist", .directory [("c.js", .file [])]) ])]
  workingDirectory := "/"

theorem isPlain_smallDisk_root : smallDisk.root.IsPlain := by
  have files {entries : List (String × Entry)} (distinct : (entries.map Prod.fst).Nodup)
      (named : ∀ entry ∈ entries, PlainName entry.1)
      (only : ∀ entry ∈ entries, entry.2 = .file []) : (Entry.directory entries).IsPlain :=
    .directory distinct named fun entry listed => only entry listed ▸ .file []
  refine .directory (by decide) (by decide) fun app listed => ?_
  rw [List.mem_singleton.mp listed]
  refine .directory (by decide) (by decide) fun entry listed => ?_
  simp only [List.mem_cons, List.not_mem_nil, or_false] at listed
  rcases listed with rfl | rfl
  · exact files (by decide) (by decide) (by simp)
  · exact files (by decide) (by decide) (by simp)

theorem discover_exact_smallDisk :
    PlainBeneath smallDisk "/app" ∧
      (discover smallDisk "/app" {} none).Pairwise (· < ·) ∧
      (∀ path, path ∈ discover smallDisk "/app" {} none ↔
        IsScanned smallDisk "/app" {} none path) ∧
      ∀ other : Disk, other.workingDirectory = "/" → Entry.Relisted smallDisk.root other.root →
        discover other "/app" {} none = discover smallDisk "/app" {} none := by
  have plain : PlainBeneath smallDisk "/app" := fun _ found =>
    Disk.isPlain_find isPlain_smallDisk_root found
  exact ⟨plain, discover_exact smallDisk "/app" {} none plain⟩

end SourceAtlas.Settings
