/-
# Scanning a repository

A scan finds the source files under a root, looks at each of them on its own, and puts the graph
together. What it finds depends on the parser, the disk, the compiler configuration, the root and
the options alone. Files that cannot be read are left out with a warning.
-/

import SourceAtlas.Graph.Notice
import SourceAtlas.Scan.Extract
import SourceAtlas.Settings.Discovery

namespace SourceAtlas.Scan

open SourceAtlas.Graph Settings

/-- What a scan of a root counts as internal. -/
def scopeOf (root : String) (options : Options) : InternalScope :=
  { root, packages := options.internalPackages, scope := options.internalPrefix }

def readSources (parser : Parser) (disk : Disk) (root : String) (options : Options)
    (paths : List String) : List SourceFile :=
  paths.map (readSource parser disk options.extensions (scopeOf root options))

/-- What is found in the source files under a root, in the order of their paths. -/
def examine (parser : Parser) (disk : Disk) (config : CompilerConfig) (root : String)
    (options : Options) : List SourceFile :=
  readSources parser disk root options (discover disk root options (some config))

/-- The files from which the graph is made. -/
def usable (sources : List SourceFile) : List SourceFile :=
  sources.filter SourceFile.readable

/-- The graph of what is under a root now: what a scan gives if nothing is remembered. -/
def repositoryGraph (parser : Parser) (disk : Disk) (config : CompilerConfig) (root : String)
    (options : Options) : Except BuildFault DependencyGraph :=
  buildGraph (scopeOf root options) (usable (examine parser disk config root options))

/-- What a scan reports about its progress. -/
inductive Progress where
  | reusing (root : String)
  | scanning (root : String)
  | found (count : Nat)
  | parsing (path : String)
  | flawed (path : String) (complaints : List String)
  | finished (nodes edges : Nat)

def Progress.text : Progress → String
  | .reusing root => s!"[*] Using cached graph for {root}"
  | .scanning root => s!"[*] Scanning Repository: {root}..."
  | .found count => s!"[INFO] Found {count} source files"
  | .parsing path => s!"  -> Parsing {Path.baseName path}..."
  | .flawed path complaints =>
    let all := "; ".intercalate complaints
    s!"  [WARN] {path}: {all}"
  | .finished nodes edges => s!"[OK] Graph: {nodes} nodes, {edges} edges"

/-- Whether files are looked at one after the other and announced. -/
def isSequential (options : Options) (count : Nat) : Bool :=
  options.workers ≤ 1 || count ≤ 1

def sourceProgress (announce : Bool) (source : SourceFile) : List Progress :=
  (if announce then [.parsing source.path] else []) ++
    (if source.readable && !source.complaints.isEmpty then
      [.flawed source.path source.complaints]
    else [])

def sourcesProgress (options : Options) (sources : List SourceFile) : List Progress :=
  sources.flatMap (sourceProgress (isSequential options sources.length))

def skippedText (source : SourceFile) : String :=
  let all := "; ".intercalate source.complaints
  s!"  [WARN] Skipping {source.path}: {all}"

def warnings (sources : List SourceFile) : List String :=
  (sources.filter fun s => !s.readable).map skippedText

end SourceAtlas.Scan
