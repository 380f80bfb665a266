/-
# What is always ignored

The patterns that are always ignored stand among the ignored ones whatever the options and the
configuration say, and each of them matches every path on which its name stands. So no file beneath
a directory of such a name is found, nor a file of such a name.
-/

import SourceAtlas.Proofs.Glob.Blocks
import SourceAtlas.Proofs.Settings.Discovery

namespace SourceAtlas.Settings

open Glob (PlainName IsLiteral)

/-- The names that are always ignored, wherever they stand. -/
def ignoredNames : List String := ["node_modules", "dist", "build"]

/-- Each name is ignored by a pattern of its own. -/
theorem exists_pattern_of_mem_ignoredNames {name : String} (listed : name ∈ ignoredNames) :
    IsLiteral name.toList ∧
      ∃ pattern ∈ defaultIgnorePatterns, Glob.segments pattern = ["**", name, "**"] := by
  simp only [ignoredNames, List.mem_cons, List.not_mem_nil, or_false] at listed
  rcases listed with rfl | rfl | rfl
  · exact ⟨by decide, "**/node_modules/**", by decide, by decide +kernel⟩
  · exact ⟨by decide, "**/dist/**", by decide, by decide +kernel⟩
  · exact ⟨by decide, "**/build/**", by decide, by decide +kernel⟩

/-- What is always ignored can only be added to. -/
theorem defaultIgnorePatterns_subset (options : Options) (config : Option CompilerConfig) :
    defaultIgnorePatterns ⊆ (selection options config).ignored := by
  intro pattern listed
  exact List.mem_append_left _ (List.mem_append_left _ listed)

/-- A path on which such a name stands does not pass the test of a file. -/
theorem Selected.notMem_segments {options : Options} {config : Option CompilerConfig}
    {path name : String} (selected : Selected options config path) (listed : name ∈ ignoredNames) :
    name ∉ Glob.segments path := by
  intro stands
  obtain ⟨literal, pattern, known, parts⟩ := exists_pattern_of_mem_ignoredNames listed
  have matched : Glob.isMatch pattern path = true := by
    rw [Glob.isMatch, parts]
    exact Glob.matchSegments_anywhere literal stands
  have unmatched := selected.notIgnored pattern (defaultIgnorePatterns_subset options config known)
  rw [matched] at unmatched
  cases unmatched

/-- **Nothing switches off what is always ignored.** On a tree whose names hold neither slash nor
backslash, whatever the options and the configuration are, no segment below the root of a path that
is found is one of the names. -/
theorem notMem_ignoredNames_of_discovered (disk : Disk) (root : String) (options : Options)
    (config : Option CompilerConfig)
    (named : ∀ tree, disk.find (disk.absolutePath root) = .ok tree → tree.NamesAre PlainName)
    (path : String) (discovered : path ∈ discover disk root options config) :
    ∃ below, path = Path.join (disk.absolutePath root) below ∧ Path.isAbsolute below = false ∧
      ∀ segment ∈ Path.rawSegments below, segment ∉ ["node_modules", "dist", "build"] := by
  obtain ⟨entries, names, found, file, rfl, kept⟩ := exists_fileAt_of_mem_discover discovered
  have plain := (named _ found).of_fileAt file
  refine ⟨Path.joinSegments names, rfl, isAbsolute_joinSegments plain, ?_⟩
  intro segment stands listed
  rw [Path.rawSegments_joinSegments file.ne_nil fun name among => (plain name among).slashless]
    at stands
  have absent := (keeps_eq_true_iff.mp kept).notMem_segments listed
  rw [Glob.segments_joinSegments plain] at absent
  exact absent stands

/-- Options that ask for everything, and for an ignored directory by its name. -/
def greedyOptions : Options := { filePatterns := ["**/*", "dist/**"] }

theorem notMem_ignoredNames_of_discovered_smallDisk :
    (∀ tree, smallDisk.find (smallDisk.absolutePath "/app") = .ok tree → tree.NamesAre PlainName) ∧
      "/app/src/b.ts" ∈ discover smallDisk "/app" greedyOptions none ∧
      ∃ below, "/app/src/b.ts" = Path.join (smallDisk.absolutePath "/app") below ∧
        Path.isAbsolute below = false ∧
        ∀ segment ∈ Path.rawSegments below, segment ∉ ["node_modules", "dist", "build"] := by
  have plain : PlainBeneath smallDisk "/app" := fun _ found =>
    Disk.isPlain_find isPlain_smallDisk_root found
  have named : ∀ tree, smallDisk.find (smallDisk.absolutePath "/app") = .ok tree →
      tree.NamesAre PlainName := fun tree found => (plain tree found).namesAre
  have discovered : "/app/src/b.ts" ∈ discover smallDisk "/app" greedyOptions none := by
    have raw : Path.rawSegments (smallDisk.fromRoot (smallDisk.absolutePath "/app")) =
      ["", "app"] := by decide +kernel
    have found := Disk.find_of_follow (by decide +kernel) raw rfl
    exact (mem_discover_iff plain).mpr ⟨_, ["src", "b.ts"], found,
      .beneath List.mem_cons_self (.here List.mem_cons_self),
      keeps_eq_true_iff.mp (by decide +kernel), by decide +kernel⟩
  exact ⟨named, discovered,
    notMem_ignoredNames_of_discovered smallDisk "/app" greedyOptions none named _ discovered⟩

end SourceAtlas.Settings
