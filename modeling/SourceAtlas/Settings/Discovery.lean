/-
# Which files are scanned

A file beneath the root is scanned if it matches an included pattern and no ignored one. Files that
only declare types are left out. Directories of which everything is ignored are not entered, which
changes nothing but the time it takes.
-/

import SourceAtlas.Disk.Basic
import SourceAtlas.Glob.Basic
import SourceAtlas.Grammar.Dialect
import SourceAtlas.Settings.CompilerConfig
import SourceAtlas.Settings.Options

namespace SourceAtlas.Settings

/-- What decides whether a file is scanned. -/
structure Selection where
  included : List String
  ignored : List String
  /-- Whether only files of a known language are scanned. -/
  knownOnly : Bool

/-- The included patterns: those of the options, else those of the configuration, else the
default ones. -/
def includedPatterns (options : Options) (config : Option CompilerConfig) : List String × Bool :=
  let entries := (config.map CompilerConfig.included).getD []
  if !options.filePatterns.isEmpty then (options.filePatterns, false)
  else if !entries.isEmpty then (entries.map Glob.ofEntry, true)
  else (defaultFilePatterns, false)

def selection (options : Options) (config : Option CompilerConfig) : Selection :=
  let (included, knownOnly) := includedPatterns options config
  let excluded := ((config.map CompilerConfig.excluded).getD []).map Glob.ofEntry
  { included, knownOnly, ignored := options.allIgnorePatterns ++ excluded }

/-- The end of the name of a file that only declares types. -/
def declarationEnd : String := ".d.ts"

/-- Whether a file is scanned, by its path relative to the root. An ignored pattern outweighs an
included one. -/
def Selection.keeps (s : Selection) (path : String) : Bool :=
  !path.endsWith declarationEnd &&
    (!s.knownOnly || Grammar.isSourcePath path) &&
    Glob.matchesAny s.included path &&
    !Glob.matchesAny s.ignored path

/-- The files to scan beneath a root, by their absolute paths in order. The patterns see paths
relative to the root. -/
def discover (disk : Disk) (root : String) (options : Options) (config : Option CompilerConfig) :
    List String :=
  let s := selection options config
  let top := disk.absolutePath root
  let found := (disk.filesBelow (Glob.ignoresDirectory s.ignored) top).filter s.keeps
  (found.map (Path.join top)).mergeSort fun a b => decide (a ≤ b)

end SourceAtlas.Settings
