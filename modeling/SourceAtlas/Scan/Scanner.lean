/-
# Scanners

A scanner has a parser and a compiler configuration and remembers the graphs that it has made. A
graph is remembered under the absolute root and the digests of the options and the configuration, so
another scan with the same three gives the same graph without looking at the disk again.
-/

import SourceAtlas.Scan.Repository

namespace SourceAtlas.Scan

open SourceAtlas.Graph Settings

/-- What a graph is remembered under. -/
structure CacheKey where
  root : String
  digest : String
deriving DecidableEq, Repr

/-- A scanner with what it remembers. -/
structure Scanner where
  parser : Parser
  config : CompilerConfig
  options : Options
  /-- The files from which the graph of the last scan that looked at the disk was made. -/
  sources : List SourceFile := []
  cache : List (CacheKey × DependencyGraph) := []

/-- Why a scanner cannot be set up. -/
inductive SetupFault where
  | config (fault : ConfigFault)
  | option (fault : OptionFault)

/-- Why a scan fails. -/
inductive ScanFault where
  | rootNotFound (root : String)
  | build (fault : BuildFault)

def rootNotFoundMessage (root : String) : String := s!"Root directory not found: {root}"

/-- What a call of a scanner leaves behind. -/
structure Outcome where
  scanner : Scanner
  result : Except ScanFault DependencyGraph
  /-- Whether the graph was remembered. -/
  reused : Bool := false
  /-- The lines of the report. -/
  log : List String := []
  warnings : List String := []

/-- Sets up a scanner. Without options it takes the default ones and the environment; options that
are given are not looked up in the environment. -/
def Scanner.setUp (parser : Parser) (disk : Disk) (configPath : String)
    (options : Option Options) (env : Environment) : Except SetupFault Scanner := do
  let config ← (loadCompilerConfig disk (disk.absolutePath configPath)).mapError .config
  match options with
  | some options => return { parser, config, options }
  | none =>
    let options ← (({} : Options).withEnvironment env).mapError .option
    return { parser, config, options }

namespace Scanner

def cacheKey (s : Scanner) (disk : Disk) (root : String) (options : Options) : CacheKey :=
  { root := disk.absolutePath root, digest := s!"{options.digest}:{s.config.digest}" }

def clearCache (s : Scanner) : Scanner := { s with cache := [] }

/-- The lines of a report, if the scanner's options ask for one. -/
def report (s : Scanner) (progress : List Progress) : List String :=
  if s.options.debug then progress.map Progress.text else []

/-- The lines that building a graph adds to a report, if the options of the scan ask for them. -/
def buildReport (options : Options) (scope : InternalScope) (sources : List SourceFile)
    (graph : DependencyGraph) : List String :=
  if options.debug then (graph.buildNotices scope sources).map Notice.text else []

/-- Scans an absolute root and looks at the disk. -/
def scanAfresh (s : Scanner) (disk : Disk) (root : String) (options : Options) : Outcome :=
  let examined := examine s.parser disk s.config root options
  let sources := usable examined
  let scope := scopeOf root options
  let before := s.report
    (.scanning root :: .found examined.length :: sourcesProgress options examined)
  match buildGraph scope sources with
  | .error fault =>
    { scanner := { s with sources }, result := .error (.build fault), log := before
      warnings := warnings examined }
  | .ok graph =>
    { scanner := { s with sources, cache := (s.cacheKey disk root options, graph) :: s.cache }
      result := .ok graph
      log := before ++ buildReport options scope sources graph ++
        s.report [.finished graph.entries.length graph.arcs.length]
      warnings := warnings examined }

/-- Scans a root with the scanner's options or with others. The root has to be a directory on every
call, but only a scan that is not remembered looks at what is in it. Given options decide what is
found, and the scanner's own whether it is reported. -/
def scan (s : Scanner) (disk : Disk) (root : String) (options : Option Options) : Outcome :=
  let options := options.getD s.options
  let root := disk.absolutePath root
  if !disk.isDirectory root then { scanner := s, result := .error (.rootNotFound root) }
  else
    match s.cache.lookup (s.cacheKey disk root options) with
    | some graph =>
      { scanner := s, result := .ok graph, reused := true, log := s.report [.reusing root] }
    | none => s.scanAfresh disk root options

end Scanner

end SourceAtlas.Scan
