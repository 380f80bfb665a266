/-
# Building the graph

The graph is built in two phases. First every file is added with the declarations it contains. When
all files are known, each file is linked to what it imports: to the scanned file at the target, or
to a placeholder where no file was scanned.
-/

import SourceAtlas.Disk.Path
import SourceAtlas.Graph.Basic
import SourceAtlas.Graph.SourceFile

namespace SourceAtlas.Graph

/-- Why a step of building fails. -/
inductive BuildFault where
  | graph (fault : GraphFault)
  /-- What should be linked is not there or imports nothing. -/
  | notAFile (key : String)

/-- The key of what a record imports: the path on disk if there is one, and the specifier
otherwise. -/
def ImportRecord.targetKey (r : ImportRecord) : String :=
  match r.resolvedPath with
  | some path => if path == "" then r.specifier else path
  | none => r.specifier

/-- A relative specifier that leads to nothing. -/
def ImportRecord.isBroken (r : ImportRecord) : Bool :=
  r.isRelative && r.resolvedPath.isNone

/-- The placeholder for what a record imports. -/
def ImportRecord.placeholder (r : ImportRecord) : Node :=
  .module { name := r.specifier, path := r.targetKey, internal := true, broken := r.isBroken }

def SourceFile.fileNode (source : SourceFile) : Node :=
  .file
    { name := Path.baseName source.path, path := source.path, lineCount := source.lineCount
      imports := source.imports, dependencies := source.dependencies }

namespace DependencyGraph

def liftFault {α : Type} : Except GraphFault α → Except BuildFault α
  | .ok a => .ok a
  | .error fault => .error (.graph fault)

/-- Adds a declaration and the edge from its file to it. Declarations of one name in one file share
a key, and so a node. -/
def addDeclaration (fileKey : String) (g : DependencyGraph) (declaration : Node) :
    Except BuildFault DependencyGraph :=
  liftFault ((g.addNode declaration.uniqueId declaration).addEdge
    { source := fileKey, target := declaration.uniqueId, kind := .contains })

/-- The key under which the node of a source file stands once it has been added. -/
def storedFileKey (g : DependencyGraph) (source : SourceFile) : String :=
  ((g.node? source.path).getD source.fileNode).uniqueId

def addSource (g : DependencyGraph) (source : SourceFile) : Except BuildFault DependencyGraph :=
  let g := g.addNode source.path source.fileNode
  source.declarations.foldlM (addDeclaration (g.storedFileKey source)) g

/-- Links a file to what one record imports. A placeholder is added at the target, and a scanned
file that stands there absorbs it unchanged. -/
def linkRecord (fileKey : String) (g : DependencyGraph) (r : ImportRecord) :
    Except BuildFault DependencyGraph :=
  liftFault ((g.addNode r.targetKey r.placeholder).addEdge
    { source := fileKey, target := r.targetKey, kind := .imports
      attributes := [("line", .int r.line)] })

/-- The import records of the file under a key. -/
def importsOf (g : DependencyGraph) (key : String) : Except BuildFault (List ImportRecord) :=
  match g.node? key with
  | some (.file n) => .ok n.imports
  | _ => .error (.notAFile key)

/-- Links a file to everything internal that it imports. -/
def linkFile (scope : InternalScope) (g : DependencyGraph) (key : String) :
    Except BuildFault DependencyGraph := do
  let records ← g.importsOf key
  (scope.internalRecords records).foldlM (linkRecord key) g

/-- How many links a file gets. -/
def linkCount (scope : InternalScope) (g : DependencyGraph) (key : String) :
    Except BuildFault Nat := do
  let records ← g.importsOf key
  return (scope.internalRecords records).length

def linkAll (scope : InternalScope) (g : DependencyGraph) : Except BuildFault DependencyGraph :=
  (g.keysOfKind .file).foldlM (linkFile scope) g

/-- How many links all files get together. -/
def linkCountAll (scope : InternalScope) (g : DependencyGraph) : Except BuildFault Nat := do
  let counts ← (g.keysOfKind .file).mapM (linkCount scope g)
  return counts.foldr (· + ·) 0

/-- Adds files and links everything. All files are added before the first is linked, so an import
finds the file that it leads to wherever that stands among the others. -/
def build (scope : InternalScope) (g : DependencyGraph) (sources : List SourceFile) :
    Except BuildFault DependencyGraph := do
  let g ← sources.foldlM addSource g
  linkAll scope g

end DependencyGraph

def buildGraph (scope : InternalScope) (sources : List SourceFile) :
    Except BuildFault DependencyGraph :=
  DependencyGraph.build scope {} sources

end SourceAtlas.Graph
