/-
# Nodes as plain records

The JSON records of import statements and nodes. Sets are written in order.
-/

import SourceAtlas.Graph.Node

namespace SourceAtlas.Graph

/-- A set of names as an ordered array. -/
def setRecord (s : NameSet) : Json := .texts s.toList

def ImportRecord.record (r : ImportRecord) : Json :=
  .object
    [("module_specifier", .text r.specifier),
      ("module_full_path", .optionalText r.resolvedPath),
      ("default_import", .optionalText r.defaultName),
      ("named_imports", setRecord r.names),
      ("namespace_import", .optionalText r.namespaceName),
      ("line", .int r.line),
      ("is_type_only", .bool r.typeOnly)]

/-- The five sets of a component, by name. -/
def ComponentDetails.members (d : ComponentDetails) : List (String × Json) :=
  [("hooks", setRecord d.hooks),
    ("state_variables", setRecord d.stateVariables),
    ("state_setters", setRecord d.stateSetters),
    ("incoming_props", setRecord d.incomingProps),
    ("child_props", setRecord d.childProps)]

/-- What belongs to one variant only. -/
def Node.ownMembers : Node → List (String × Json)
  | .file n =>
    [("line_count", .int n.lineCount),
      ("imports", .array (n.imports.map ImportRecord.record)),
      ("dependencies", .texts n.dependencies)]
  | .component n =>
    ("range", .array [.int n.startLine, .int n.endLine]) :: n.details.members
  | .utility n => [("range", .array [.int n.startLine, .int n.endLine])]
  | .module n => [("is_internal", .bool n.internal), ("is_broken", .bool n.broken)]

def Node.members (n : Node) : List (String × Json) :=
  [("type", .text n.kind.name), ("name", .text n.name), ("file_path", .text n.path),
    ("unique_id", .text n.uniqueId)] ++ n.ownMembers

def Node.record (n : Node) : Json := .object n.members

end SourceAtlas.Graph
