/-
# Entries of a configuration that name a directory

Where a configuration includes a directory by its path alone, what is found is what stands beneath
the directory: every file of a known language there that nothing else leaves out, and no other file.
Names may hold backslashes, which divide segments like slashes.
-/

import SourceAtlas.Proofs.Glob.Entries
import SourceAtlas.Proofs.Settings.Discovery

namespace SourceAtlas

namespace Path

theorem mem_splitLast_of_mem_extension {path : String} {c : Char} (other : c ≠ '.')
    (listed : c ∈ (extension path).toList) : c ∈ (splitLast path).2 := by
  rw [extension] at listed
  split at listed
  · rw [String.toList_ofList] at listed
    have later := (List.mem_cons.mp listed).resolve_left other
    have among := (List.takeWhile_sublist _).mem (List.mem_reverse.mp later)
    exact (List.dropWhile_sublist _).mem (List.mem_reverse.mp among)
  · cases listed

theorem splitLast_subset (path : String) : (splitLast path).2 ⊆ path.toList := by
  intro c listed
  exact List.mem_reverse.mp ((List.takeWhile_sublist _).mem (List.mem_reverse.mp listed))

/-- What stands after the last slash stands after every slash. -/
theorem mem_of_mem_splitLast {path : String} {before after : List Char} {c : Char}
    (whole : path.toList = before ++ '/' :: after) (listed : c ∈ (splitLast path).2) :
    c ∈ after := by
  rw [splitLast, whole] at listed
  have among := List.mem_reverse.mp listed
  rw [List.reverse_append, List.reverse_cons, List.append_assoc, List.takeWhile_append] at among
  split at among
  · simpa using among
  · exact List.mem_reverse.mp ((List.takeWhile_sublist _).mem among)

end Path

/-- The last segment of a path of a known language is not all dots and slashes. -/
theorem Grammar.exists_letter_of_isSourcePath {path : String} (known : isSourcePath path = true) :
    ∃ c ∈ (Path.splitLast path).2, c ∉ ['.', '/', '\\'] := by
  rw [isSourcePath, knownDialect?, Option.isSome_iff_exists] at known
  obtain ⟨dialect, found⟩ := known
  have letter : ∀ entry ∈ dialectExtensions, 's' ∈ entry.1.toList := by decide
  have lower := letter _ (mem_of_lookup found)
  have spelled : (Path.extension path).toLower.toList =
      (Path.extension path).toList.map Char.toLower := String.toList_map
  rw [spelled] at lower
  obtain ⟨c, listed, small⟩ := List.mem_map.mp lower
  have other : c ∉ ['.', '/', '\\'] := by
    intro mark
    simp only [List.mem_cons, List.not_mem_nil, or_false] at mark
    rcases mark with rfl | rfl | rfl <;> exact absurd small (by decide)
  refine ⟨c, Path.mem_splitLast_of_mem_extension ?_ listed, other⟩
  rintro rfl
  exact other List.mem_cons_self

namespace Glob

open SourceAtlas.Path (IsName joinSegments)

theorem toList_joinSegments_append {directory beneath : List String} (nonempty : directory ≠ [])
    (more : beneath ≠ []) :
    (joinSegments (directory ++ beneath)).toList =
      (joinSegments directory).toList ++ '/' :: (joinSegments beneath).toList := by
  induction directory with
  | nil => exact absurd rfl nonempty
  | cons name rest ih =>
      by_cases last : rest = []
      · subst last
        rw [List.singleton_append, toList_joinSegments_cons name more, joinSegments, joinSegments,
          String.intercalate_singleton]
      · rw [List.cons_append,
          toList_joinSegments_cons name (List.append_ne_nil_of_right_ne_nil _ more), ih last,
          toList_joinSegments_cons name last, List.append_assoc, List.cons_append]

theorem joinSegments_ne_here {directory : List String}
    (named : ∀ name ∈ directory, IsName name) : joinSegments directory ≠ "." := by
  intro same
  cases directory with
  | nil => exact absurd same (by decide)
  | cons name rest =>
      by_cases last : rest = []
      · subst last
        rw [joinSegments, String.intercalate_singleton] at same
        exact (named name List.mem_cons_self).notHere same
      · have chars := toList_joinSegments_cons name last
        rw [same] at chars
        have slash : '/' ∈ ".".toList := by simp [chars]
        exact absurd slash (by decide)

/-- A file of a known language has the segments of every directory above it and some more. -/
theorem exists_segments_beneath {directory beneath : List String}
    (named : ∀ name ∈ directory, IsName name) (more : beneath ≠ [])
    (known : Grammar.isSourcePath (joinSegments (directory ++ beneath)) = true) :
    ∃ below, below ≠ [] ∧
      segments (joinSegments (directory ++ beneath)) =
        segments (joinSegments directory) ++ below := by
  obtain ⟨c, listed, other⟩ := Grammar.exists_letter_of_isSourcePath known
  simp only [List.mem_cons, List.not_mem_nil, or_false, not_or] at other
  obtain ⟨notDot, notSlash, notBackslash⟩ := other
  by_cases top : directory = []
  · subst top
    refine ⟨segments (joinSegments ([] ++ beneath)), ?_, rfl⟩
    have among := mem_withSlashes notBackslash (Path.splitLast_subset _ listed)
    exact slashParts_ne_nil notSlash (mem_dropHere notDot notSlash among)
  · have whole := toList_joinSegments_append top more
    have among := mem_withSlashes notBackslash (Path.mem_of_mem_splitLast whole listed)
    refine ⟨_, slashParts_ne_nil notSlash among, ?_⟩
    rw [segments_eq, segments_eq, whole, withSlashes_append]
    show slashParts (dropHere (withSlashes _ ++ '/' :: withSlashes _)) = _
    rw [dropHere_append_cons (withSlashes_ne_here (joinSegments_ne_here named)),
      slashParts_append_cons]

end Glob

namespace Settings

open SourceAtlas.Path (IsName)

variable {disk : Disk} {root : String} {options : Options} {entries : List (String × Entry)}

/-- A file that is kept is found: the directories above it are entered, or it would be ignored. -/
theorem mem_discover_of_keeps {config : Option CompilerConfig} {names : List String}
    (found : disk.find (disk.absolutePath root) = .ok (.directory entries))
    (named : ∀ name ∈ names, IsName name) (file : FileAt entries names)
    (known : Grammar.isSourcePath (Path.joinSegments names) = true)
    (kept : (selection options config).keeps (Path.joinSegments names) = true) :
    Path.join (disk.absolutePath root) (Path.joinSegments names) ∈
      discover disk root options config := by
  rw [discover, (List.mergeSort_perm _ _).mem_iff]
  refine List.mem_map.mpr ⟨_, List.mem_filter.mpr ⟨?_, kept⟩, rfl⟩
  rw [Disk.filesBelow, found]
  refine mem_filesBeneath file [] fun directory beneath _ more whole => ?_
  subst whole
  obtain ⟨below, some, parts⟩ := Glob.exists_segments_beneath
    (fun name listed => named name (List.mem_append_left _ listed)) more known
  rw [List.nil_append, ← Bool.not_eq_true]
  intro skipped
  rw [keeps_beneath_ignored _ some parts skipped] at kept
  cases kept

theorem selection_of_entry {config : CompilerConfig} {entry : String}
    (noPatterns : options.filePatterns = []) (included : config.included = [entry])
    (excluded : config.excluded = []) :
    selection options (some config) =
      { included := [Glob.ofEntry entry], ignored := options.allIgnorePatterns,
        knownOnly := true } := by
  simp [selection, includedPatterns, noPatterns, included, excluded]

/-- **An entry for a directory stands for everything beneath it.** The configuration includes
nothing but the directory, with `./` before its path or without, and with a slash behind it or
without; the empty path is the root. The path has no special character, the last segment of the
entry has no dot, and no `./` is left at the start of the path once one was taken away. Then every
file beneath the directory is found that is of a known language, does not only declare types and
matches no ignored pattern, and everything that is found stands beneath the directory. -/
theorem discover_directoryEntry (disk : Disk) (root : String) (options : Options)
    (config : CompilerConfig) (entries : List (String × Entry)) (directory : List String)
    (lead tail : String)
    (found : disk.find (disk.absolutePath root) = .ok (.directory entries))
    (named : (Entry.directory entries).NamesAre IsName)
    (directoryNamed : ∀ name ∈ directory, IsName name)
    (noPatterns : options.filePatterns = [])
    (included : config.included = [lead ++ Path.joinSegments directory ++ tail])
    (excluded : config.excluded = [])
    (leads : lead ∈ ["", "./"]) (tails : tail ∈ ["", "/"])
    (literal : Glob.IsLiteral (Path.joinSegments directory).toList)
    (dotless : Glob.Dotless (lead ++ Path.joinSegments directory ++ tail))
    (once : lead = "" → ¬ "././".toList <+: Glob.withSlashes (Path.joinSegments directory).toList) :
    (∀ beneath : List String, beneath ≠ [] → FileAt entries (directory ++ beneath) →
        Grammar.isSourcePath (Path.joinSegments (directory ++ beneath)) = true →
        (Path.joinSegments (directory ++ beneath)).endsWith ".d.ts" = false →
        (∀ pattern ∈ options.allIgnorePatterns,
          Glob.isMatch pattern (Path.joinSegments (directory ++ beneath)) = false) →
        Path.join (disk.absolutePath root) (Path.joinSegments (directory ++ beneath)) ∈
          discover disk root options (some config)) ∧
      ∀ path ∈ discover disk root options (some config), ∃ names below,
        FileAt entries names ∧ path = Path.join (disk.absolutePath root) (Path.joinSegments names) ∧
        below ≠ [] ∧
        Glob.segments (Path.joinSegments names) =
          Glob.segments (Path.joinSegments directory) ++ below := by
  have chosen := selection_of_entry noPatterns included excluded
  have matches_iff (path : String) :
      Glob.isMatch (Glob.ofEntry (lead ++ Path.joinSegments directory ++ tail)) path = true ↔
        ∃ below, below ≠ [] ∧
          Glob.segments path = Glob.segments (Path.joinSegments directory) ++ below :=
    Glob.isMatch_directoryEntry_iff literal (Glob.joinSegments_ne_here directoryNamed) leads tails
      dotless once
  constructor
  · intro beneath more file known notDeclaration notIgnored
    refine mem_discover_of_keeps found (named.of_fileAt file) file known (keeps_eq_true_iff.mpr ?_)
    refine ⟨notDeclaration, fun _ _ => known, ?_, ?_⟩
    · rw [chosen]
      exact ⟨_, List.mem_singleton_self _, (matches_iff _).mpr
        (Glob.exists_segments_beneath directoryNamed more known)⟩
    · rw [chosen]
      exact notIgnored
  · intro path discovered
    obtain ⟨others, names, sameFound, file, rfl, kept⟩ := exists_fileAt_of_mem_discover discovered
    rw [found] at sameFound
    cases sameFound
    obtain ⟨pattern, listed, matched⟩ := (keeps_eq_true_iff.mp kept).included
    rw [chosen, List.mem_singleton] at listed
    rw [listed] at matched
    obtain ⟨below, more, parts⟩ := (matches_iff _).mp matched
    exact ⟨names, below, file, rfl, more, parts⟩

/-- The entries of a directory in which one name has a dot and others have backslashes. -/
def versionEntries : List (String × Entry) :=
  [ ("v1.0", .directory
      [("ui\\web", .directory [("a.ts", .file []), ("types.d.ts", .file [])]), ("b.ts", .file [])]),
    (".\\.\\x", .directory [("c.ts", .file [])]) ]

def versionDisk : Disk where
  root := .directory [("app", .directory versionEntries)]
  workingDirectory := "/"

/-- A configuration that includes one entry. -/
def configOf (entry : String) : CompilerConfig where
  path := "/app/tsconfig.json"
  directory := "/app"
  included := [entry]

theorem find_versionDisk :
    versionDisk.find (versionDisk.absolutePath "/app") = .ok (.directory versionEntries) := by
  have raw : Path.rawSegments (versionDisk.fromRoot (versionDisk.absolutePath "/app")) =
    ["", "app"] := by decide +kernel
  exact Disk.find_of_follow (by decide +kernel) raw rfl

theorem namesAre_versionEntries : (Entry.directory versionEntries).NamesAre IsName := by
  have files {entries : List (String × Entry)} (named : ∀ entry ∈ entries, IsName entry.1)
      (only : ∀ entry ∈ entries, entry.2 = .file []) : (Entry.directory entries).NamesAre IsName :=
    .directory named fun entry listed => only entry listed ▸ .file []
  refine .directory (by decide) fun entry listed => ?_
  simp only [versionEntries, List.mem_cons, List.not_mem_nil, or_false] at listed
  rcases listed with rfl | rfl
  · refine .directory (by decide) fun entry listed => ?_
    simp only [List.mem_cons, List.not_mem_nil, or_false] at listed
    rcases listed with rfl | rfl
    · exact files (by decide) (by simp)
    · exact .file []
  · exact files (by decide) (by simp)

theorem discover_directoryEntry_versionDisk :
    versionDisk.find (versionDisk.absolutePath "/app") = .ok (.directory versionEntries) ∧
      (Entry.directory versionEntries).NamesAre IsName ∧
      (configOf "./v1.0/ui\\web/").included =
        ["./" ++ Path.joinSegments ["v1.0", "ui\\web"] ++ "/"] ∧
      Glob.Dotless ("./" ++ Path.joinSegments ["v1.0", "ui\\web"] ++ "/") ∧
      "/app/v1.0/ui\\web/a.ts" ∈
        discover versionDisk "/app" {} (some (configOf "./v1.0/ui\\web/")) := by
  have included : (configOf "./v1.0/ui\\web/").included =
      ["./" ++ Path.joinSegments ["v1.0", "ui\\web"] ++ "/"] := by decide +kernel
  have dotless : Glob.Dotless ("./" ++ Path.joinSegments ["v1.0", "ui\\web"] ++ "/") := by
    decide +kernel
  have file : FileAt versionEntries (["v1.0", "ui\\web"] ++ ["a.ts"]) :=
    .beneath List.mem_cons_self (.beneath List.mem_cons_self (.here List.mem_cons_self))
  have place : Path.join (versionDisk.absolutePath "/app")
      (Path.joinSegments (["v1.0", "ui\\web"] ++ ["a.ts"])) = "/app/v1.0/ui\\web/a.ts" := by
    decide +kernel
  obtain ⟨all, -⟩ := discover_directoryEntry versionDisk "/app" {} (configOf "./v1.0/ui\\web/")
    versionEntries ["v1.0", "ui\\web"] "./" "/" find_versionDisk namesAre_versionEntries (by decide)
    rfl included rfl (by decide) (by decide) (by decide +kernel) dotless
    (fun same => absurd same (by decide))
  have discovered := all ["a.ts"] (by decide) file (by decide +kernel) (by decide +kernel)
    (by decide +kernel)
  rw [place] at discovered
  exact ⟨find_versionDisk, namesAre_versionEntries, included, dotless, discovered⟩

/-- **Not every directory can be named so.** Nothing is found for a directory with a dot in its
name, for the root by a lone dot, and for a directory whose path loses two dots at its start. -/
theorem discover_versionDisk :
    FileAt versionEntries ["v1.0", "b.ts"] ∧ FileAt versionEntries [".\\.\\x", "c.ts"] ∧
      (∀ path ∈ ["v1.0/b.ts", ".\\.\\x/c.ts"], Grammar.isSourcePath path = true ∧
        path.endsWith ".d.ts" = false ∧
        ∀ pattern ∈ ({} : Options).allIgnorePatterns, Glob.isMatch pattern path = false) ∧
      ∀ entry ∈ ["v1.0", ".", ".\\.\\x"],
        discover versionDisk "/app" {} (some (configOf entry)) = [] := by
  refine ⟨.beneath List.mem_cons_self (.here (List.mem_cons_of_mem _ List.mem_cons_self)),
    .beneath (List.mem_cons_of_mem _ List.mem_cons_self) (.here List.mem_cons_self),
    by decide +kernel, ?_⟩
  have unkept : ∀ entry ∈ ["v1.0", ".", ".\\.\\x"], ∀ names ∈ fileNames versionEntries,
      (selection {} (some (configOf entry))).keeps (Path.joinSegments names) = false := by
    simp only [versionEntries, fileNames]
    decide +kernel
  intro entry listed
  rw [List.eq_nil_iff_forall_not_mem]
  intro path discovered
  obtain ⟨entries, names, found, file, -, kept⟩ := exists_fileAt_of_mem_discover discovered
  rw [find_versionDisk] at found
  cases found
  rw [unkept entry listed names (mem_fileNames_iff.mpr file)] at kept
  cases kept

end Settings

end SourceAtlas
