/-
# What building reports

The lines that a build writes about its progress when it is asked to.
-/

import SourceAtlas.Graph.Build

namespace SourceAtlas.Graph

/-- One thing that a build reports. -/
inductive Notice where
  | declared (kind : NodeKind) (key : String)
  | unresolved (specifier file : String)
  | linked (file target : String)
  | linking
  | finished (files links : Nat)

def Notice.text : Notice → String
  | .declared kind key => s!"  [{kind.name.toUpper}] {key}"
  | .unresolved specifier file => s!"  [WARN] Unresolved import '{specifier}' in {file}"
  | .linked file target => s!"  [LINK] {file} -> {target}"
  | .linking => "[*] Building Links..."
  | .finished files links => s!"[INFO] Graph: {files} files, {links} import edges"

def SourceFile.notices (source : SourceFile) : List Notice :=
  source.declarations.map fun d => .declared d.kind d.uniqueId

/-- What is reported when a record is linked. -/
def ImportRecord.notices (file : String) (r : ImportRecord) : List Notice :=
  (if r.isBroken then [.unresolved r.specifier file] else []) ++ [.linked file r.targetKey]

namespace DependencyGraph

def linkNotices (scope : InternalScope) (g : DependencyGraph) (key : String) : List Notice :=
  match g.importsOf key with
  | .ok records => (scope.internalRecords records).flatMap (ImportRecord.notices key)
  | .error _ => []

def linkAllNotices (scope : InternalScope) (g : DependencyGraph) : List Notice :=
  (g.keysOfKind .file).flatMap (linkNotices scope g)

/-- What is reported by a build that ends in a graph. -/
def buildNotices (scope : InternalScope) (sources : List SourceFile) (built : DependencyGraph) :
    List Notice :=
  let links := match built.linkCountAll scope with
    | .ok n => n
    | .error _ => 0
  sources.flatMap SourceFile.notices ++ .linking :: built.linkAllNotices scope ++
    [.finished sources.length links]

end DependencyGraph

end SourceAtlas.Graph
