/-
# What the dependency graph holds

The nodes of the graph are source files, the declarations they contain (components, which render
markup, and utilities, which do not) and placeholder modules for imported things that were not
scanned. A file also keeps its import records.

Nodes of one variant merge: a file parsed again replaces its contents, a component or utility
gathers what was seen of it, and a placeholder is internal if it ever was and broken only while
every import of it is.
-/

import SourceAtlas.Text.NameSet
import SourceAtlas.Json.Basic

namespace SourceAtlas.Graph

/-- One import statement. -/
structure ImportRecord where
  /-- The module specifier as written. -/
  specifier : String
  /-- The path that the specifier leads to on disk, if any. -/
  resolvedPath : Option String := none
  defaultName : Option String := none
  /-- The names imported one by one, under their exported names. -/
  names : NameSet := NameSet.empty
  /-- The name bound to the whole module. -/
  namespaceName : Option String := none
  /-- The line of the statement, counted from one. -/
  line : Int := 0
  typeOnly : Bool := false

/-- A specifier is relative if it starts with a dot or a slash. -/
def isRelativeSpecifier (specifier : String) : Bool :=
  specifier.startsWith "." || specifier.startsWith "/"

def ImportRecord.isRelative (r : ImportRecord) : Bool :=
  isRelativeSpecifier r.specifier

/-- A source file, under its path. -/
structure FileNode where
  name : String
  path : String
  lineCount : Int := 0
  imports : List ImportRecord := []
  /-- The internal specifiers among the imports, in import order. -/
  dependencies : List String := []

/-- What a component does besides rendering. -/
structure ComponentDetails where
  hooks : NameSet := NameSet.empty
  stateVariables : NameSet := NameSet.empty
  stateSetters : NameSet := NameSet.empty
  incomingProps : NameSet := NameSet.empty
  childProps : NameSet := NameSet.empty

/-- A declaration that renders markup. -/
structure ComponentNode where
  name : String
  path : String
  startLine : Int := 0
  endLine : Int := 0
  details : ComponentDetails := {}

/-- A named declaration that renders no markup. -/
structure UtilityNode where
  name : String
  path : String
  startLine : Int := 0
  endLine : Int := 0

/-- A stand-in for an imported thing that was not scanned. The path is the resolved path if there
is one, and the specifier otherwise. -/
structure ModuleNode where
  name : String
  path : String
  internal : Bool := true
  /-- A relative specifier that leads to nothing on disk. -/
  broken : Bool := false

/-- A node of the dependency graph. -/
inductive Node where
  | file (n : FileNode)
  | component (n : ComponentNode)
  | utility (n : UtilityNode)
  | module (n : ModuleNode)

/-- The four variants of nodes. -/
inductive NodeKind where
  | file
  | component
  | utility
  | module
deriving DecidableEq, Repr

def NodeKind.name : NodeKind → String
  | .file => "file"
  | .component => "component"
  | .utility => "utility"
  | .module => "module"

namespace Node

def kind : Node → NodeKind
  | .file _ => .file
  | .component _ => .component
  | .utility _ => .utility
  | .module _ => .module

def name : Node → String
  | .file n => n.name
  | .component n => n.name
  | .utility n => n.name
  | .module n => n.name

def path : Node → String
  | .file n => n.path
  | .component n => n.path
  | .utility n => n.path
  | .module n => n.path

/-- The key of a declaration: its name and the path of its file. -/
def declarationKey (name path : String) : String := name ++ ":" ++ path

/-- The key under which a node is stored. -/
def uniqueId : Node → String
  | .file n => n.path
  | .component n => declarationKey n.name n.path
  | .utility n => declarationKey n.name n.path
  | .module n => n.path

end Node

/-- The first start line that is known. -/
def mergeStart (old new : Int) : Int := if old == 0 then new else old

/-- A file parsed again replaces its contents. -/
def FileNode.merge (old new : FileNode) : FileNode :=
  { old with lineCount := new.lineCount, imports := new.imports, dependencies := new.dependencies }

/-- Everything that either side found. -/
def ComponentDetails.merge (old new : ComponentDetails) : ComponentDetails where
  hooks := old.hooks.union new.hooks
  stateVariables := old.stateVariables.union new.stateVariables
  stateSetters := old.stateSetters.union new.stateSetters
  incomingProps := old.incomingProps.union new.incomingProps
  childProps := old.childProps.union new.childProps

/-- A component seen again grows. -/
def ComponentNode.merge (old new : ComponentNode) : ComponentNode :=
  { old with
    startLine := mergeStart old.startLine new.startLine
    endLine := max old.endLine new.endLine
    details := old.details.merge new.details }

def UtilityNode.merge (old new : UtilityNode) : UtilityNode :=
  { old with
    startLine := mergeStart old.startLine new.startLine
    endLine := max old.endLine new.endLine }

/-- A placeholder is internal if it ever was, and broken only while all its imports are. -/
def ModuleNode.merge (old new : ModuleNode) : ModuleNode :=
  { old with internal := old.internal || new.internal, broken := old.broken && new.broken }

/-- Merges a new node into an old one of the same variant. -/
def Node.merge? : Node → Node → Option Node
  | .file old, .file new => some (.file (old.merge new))
  | .component old, .component new => some (.component (old.merge new))
  | .utility old, .utility new => some (.utility (old.merge new))
  | .module old, .module new => some (.module (old.merge new))
  | _, _ => none

/-- What remains under a key that held `old` when `new` is added: nodes of one variant merge, a
placeholder gives way to anything else, and anything else stays. -/
def Node.absorb (old new : Node) : Node :=
  match old.merge? new with
  | some merged => merged
  | none => if old.kind == .module then new else old

end SourceAtlas.Graph
