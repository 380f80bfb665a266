/-
# Longer lists of extensions

A relative specifier leads to one target. What stands there decides where the extensions come in: a
directory is asked for index files, a file is taken as it is, and where nothing stands the
extensions are appended to the target. In each of these cases the extensions are tried in order at
one place only. So a longer list finds what a shorter one found, and the extensions that were added
come into play only where the shorter list found no file.
-/

import SourceAtlas.Proofs.Disk.Resolving

namespace SourceAtlas

theorem extensionsOrDefault_of_ne_nil {extensions : List String} (given : extensions ≠ []) :
    extensionsOrDefault extensions = extensions := by
  cases extensions with
  | nil => exact absurd rfl given
  | cons first rest => rfl

namespace Disk

/-- A path leads to a directory, to a file, or nowhere. -/
theorem kind_cases (disk : Disk) (path : String) :
    disk.isDirectory path = true ∨ disk.isFile path = true ∨ disk.doesExist path = false := by
  rw [isDirectory, isFile, doesExist]
  cases disk.find path with
  | error fault => exact .inr (.inr rfl)
  | ok entry =>
      cases entry with
      | directory entries => exact .inl rfl
      | file bytes => exact .inr (.inl rfl)

section Target

variable {disk : Disk} {importer specifier target : String} (extensions : List String)
  (relative : Graph.isRelativeSpecifier specifier = true)
  (leads : Path.normalize (Path.join (Path.directory importer) specifier) = target)
include relative leads

theorem resolve?_of_isDirectory (directory : disk.isDirectory target = true) :
    disk.resolve? extensions importer specifier =
      some ((disk.indexFile? target extensions).getD target) := by
  have stands : disk.doesExist ((disk.indexFile? target extensions).getD target) = true := by
    cases index : disk.indexFile? target extensions with
    | none => exact doesExist_of_isDirectory directory
    | some file => exact doesExist_of_isFile (indexFile?_eq_some index).1
  simp only [resolve?, relative, leads, directory, stands, if_true]

theorem resolve?_of_isFile (file : disk.isFile target = true) :
    disk.resolve? extensions importer specifier = some target := by
  simp only [resolve?, relative, leads, not_isDirectory_of_isFile file, doesExist_of_isFile file,
    Bool.false_eq_true, if_true, if_false]

theorem resolve?_of_not_doesExist (missing : disk.doesExist target = false) :
    disk.resolve? extensions importer specifier =
      ((extensionsOrDefault extensions).map fun e => target ++ e).find? disk.isFile := by
  have noDirectory : disk.isDirectory target = false := by
    rw [← Bool.not_eq_true]
    intro directory
    rw [doesExist_of_isDirectory directory] at missing
    cases missing
  simp only [resolve?, relative, leads, noDirectory, missing, Bool.false_eq_true, if_true, if_false]

end Target

theorem indexFile?_append {disk : Disk} {directory : String} {first : List String}
    (given : first ≠ []) (more : List String) :
    disk.indexFile? directory (first ++ more) =
      (disk.indexFile? directory first).or
        ((more.map fun e => Path.join directory ("index" ++ e)).find? disk.isFile) := by
  rw [indexFile?, indexFile?, extensionsOrDefault_of_ne_nil given,
    extensionsOrDefault_of_ne_nil (List.append_ne_nil_of_left_ne_nil given more), List.map_append,
    List.find?_append]

/-- What becomes of an answer when extensions are added: a file stays, a directory is asked for more
index files, and nothing is looked for further. -/
theorem resolve?_append_cases {disk : Disk} {importer specifier target : String}
    (relative : Graph.isRelativeSpecifier specifier = true)
    (leads : Path.normalize (Path.join (Path.directory importer) specifier) = target)
    {first : List String} (given : first ≠ []) (more : List String) :
    (∃ path, disk.resolve? first importer specifier = some path ∧ disk.isFile path = true ∧
        disk.resolve? (first ++ more) importer specifier = some path) ∨
      (disk.resolve? first importer specifier = some target ∧ disk.isDirectory target = true ∧
        disk.resolve? (first ++ more) importer specifier =
          some (((more.map fun e => Path.join target ("index" ++ e)).find? disk.isFile).getD
            target)) ∨
      (disk.resolve? first importer specifier = none ∧
        disk.resolve? (first ++ more) importer specifier =
          (more.map fun e => target ++ e).find? disk.isFile) := by
  rcases disk.kind_cases target with directory | file | missing
  · rw [resolve?_of_isDirectory first relative leads directory,
      resolve?_of_isDirectory (first ++ more) relative leads directory, indexFile?_append given]
    cases index : disk.indexFile? target first with
    | none => exact .inr (.inl ⟨rfl, directory, rfl⟩)
    | some path => exact .inl ⟨path, rfl, (indexFile?_eq_some index).1, rfl⟩
  · rw [resolve?_of_isFile first relative leads file,
      resolve?_of_isFile (first ++ more) relative leads file]
    exact .inl ⟨target, rfl, file, rfl⟩
  · rw [resolve?_of_not_doesExist first relative leads missing,
      resolve?_of_not_doesExist (first ++ more) relative leads missing,
      extensionsOrDefault_of_ne_nil given,
      extensionsOrDefault_of_ne_nil (List.append_ne_nil_of_left_ne_nil given more),
      List.map_append, List.find?_append]
    cases found : (first.map fun e => target ++ e).find? disk.isFile with
    | none => exact .inr (.inr ⟨rfl, rfl⟩)
    | some path => exact .inl ⟨path, rfl, List.find?_some found, rfl⟩

/-- **More extensions never lead elsewhere, only further.** A relative specifier leads to a file, to
a directory or nowhere. A file stays what it leads to when extensions are added at the end of the
list. Where it led nowhere it leads to the first file that an added extension makes of the target,
if there is one. Where it led to a directory it leads to the first index file that an added
extension gives there, and otherwise still to the directory. -/
theorem resolve?_append (disk : Disk) (importer specifier : String)
    (relative : Graph.isRelativeSpecifier specifier = true) (first more : List String)
    (given : first ≠ []) :
    let target := Path.normalize (Path.join (Path.directory importer) specifier)
    let before := disk.resolve? first importer specifier
    let after := disk.resolve? (first ++ more) importer specifier
    (∀ path, before = some path → disk.isFile path = true ∨ disk.isDirectory path = true) ∧
    (∀ path, before = some path → disk.isFile path = true → after = some path) ∧
    (before = none → after = (more.map fun e => target ++ e).find? disk.isFile) ∧
    ∀ path, before = some path → disk.isDirectory path = true →
      after =
        some (((more.map fun e => Path.join path ("index" ++ e)).find? disk.isFile).getD path) := by
  intro target before after
  have cases : (∃ path, before = some path ∧ disk.isFile path = true ∧ after = some path) ∨
      (before = some target ∧ disk.isDirectory target = true ∧
        after = some (((more.map fun e => Path.join target ("index" ++ e)).find?
          disk.isFile).getD target)) ∨
      (before = none ∧ after = (more.map fun e => target ++ e).find? disk.isFile) :=
    resolve?_append_cases relative rfl given more
  -- What the three stand for no longer matters, and unfolding them is slow.
  clear_value before after target
  rcases cases with ⟨path, found, file, same⟩ | ⟨found, directory, further⟩ | ⟨none, further⟩
  · rw [found, same]
    refine ⟨?_, fun _ again _ => again, fun none => ?_, ?_⟩
    · rintro _ ⟨⟩
      exact .inl file
    · cases none
    · rintro _ ⟨⟩ directory
      rw [not_isDirectory_of_isFile file] at directory
      cases directory
  · rw [found, further]
    refine ⟨?_, ?_, fun none => ?_, ?_⟩
    · rintro _ ⟨⟩
      exact .inr directory
    · rintro _ ⟨⟩ file
      rw [not_isDirectory_of_isFile file] at directory
      cases directory
    · cases none
    · rintro _ ⟨⟩ -
      rfl
  · rw [none, further]
    refine ⟨?_, ?_, fun _ => rfl, ?_⟩
    · rintro _ ⟨⟩
    · rintro _ ⟨⟩
    · rintro _ ⟨⟩

/-- A page, a style sheet, and a directory with a style sheet as its index. -/
def styledDisk : Disk where
  root := .directory
    [("app", .directory
      [ ("page.ts", .file []), ("page.css", .file []), ("theme.css", .file []),
        ("parts", .directory [("index.css", .file [])]) ])]
  workingDirectory := "/app"

/-- With style sheets added, the page stays what it is, and the theme and the parts are found. -/
theorem resolve?_append_styledDisk :
    styledDisk.resolve? [".ts"] "/app/main.ts" "./page" = some "/app/page.ts" ∧
      styledDisk.resolve? ([".ts"] ++ [".css"]) "/app/main.ts" "./page" = some "/app/page.ts" ∧
      styledDisk.resolve? [".ts"] "/app/main.ts" "./theme" = none ∧
      styledDisk.resolve? ([".ts"] ++ [".css"]) "/app/main.ts" "./theme" = some "/app/theme.css" ∧
      styledDisk.resolve? [".ts"] "/app/main.ts" "./parts" = some "/app/parts" ∧
      styledDisk.resolve? ([".ts"] ++ [".css"]) "/app/main.ts" "./parts" =
        some "/app/parts/index.css" := by
  have law (specifier : String) (relative : Graph.isRelativeSpecifier specifier = true) :=
    resolve?_append styledDisk "/app/main.ts" specifier relative [".ts"] [".css"]
      (List.cons_ne_nil _ _)
  have page : styledDisk.resolve? [".ts"] "/app/main.ts" "./page" = some "/app/page.ts" := by
    decide +kernel
  have theme : styledDisk.resolve? [".ts"] "/app/main.ts" "./theme" = none := by decide +kernel
  have parts : styledDisk.resolve? [".ts"] "/app/main.ts" "./parts" = some "/app/parts" := by
    decide +kernel
  refine ⟨page, ?_, theme, ?_, parts, ?_⟩
  · exact (law "./page" (by decide +kernel)).2.1 _ page (by decide +kernel)
  · rw [(law "./theme" (by decide +kernel)).2.2.1 theme]
    decide +kernel
  · rw [(law "./parts" (by decide +kernel)).2.2.2 _ parts (by decide +kernel)]
    decide +kernel

end Disk

end SourceAtlas
