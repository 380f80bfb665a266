/-
# Import statements

Reads the import statements of a file off its syntax tree: the module specifier without its quotes,
the bindings, the line, and whether only types are imported.
-/

import SourceAtlas.Syntax.Tree
import SourceAtlas.Graph.Node

namespace SourceAtlas.Syntax

open SourceAtlas.Graph

variable {α : Type}

/-- Whether a character opens and closes string literals. -/
def isQuote (c : Char) : Bool :=
  c == '"' || c == '\x27' || c == '\x60'

/-- A text without the pair of equal quotes around it, if there is one. -/
def stripQuotes (s : String) : String :=
  match s.toList with
  | first :: rest =>
    match rest.getLast? with
    | some last => if isQuote first && last == first then String.ofList rest.dropLast else s
    | none => s
  | [] => s

/-- The node that holds the exported name of an import specifier. -/
def specifierNode? (specifier : Tree α) : Option (Tree α) :=
  match specifier.child? "name" with
  | some name => some name
  | none => specifier.children.find? fun c => c.kind == "identifier" || c.kind == "string"

def specifierName? (specifier : Tree α) : Option String :=
  (specifierNode? specifier).map fun n => stripQuotes n.text

/-- Adds the bindings of one child of an import clause. -/
def addClauseChild (record : ImportRecord) (child : Tree α) : ImportRecord :=
  if child.kind == "identifier" then { record with defaultName := some child.text }
  else if child.kind == "named_imports" then
    let specifiers := child.children.filter fun c => c.kind == "import_specifier"
    { record with names := (specifiers.filterMap specifierName?).foldl NameSet.insert record.names }
  else if child.kind == "namespace_import" then
    let names := child.children.filter fun c => c.kind == "identifier"
    match names.getLast? with
    | some name => { record with namespaceName := some name.text }
    | none => record
  else record

def addClause (record : ImportRecord) (clause : Tree α) : ImportRecord :=
  clause.children.foldl addClauseChild record

/-- The node that holds the specifier inside a `require` clause. -/
def requireSource? (clause : Tree α) : Option (Tree α) :=
  match clause.child? "source" with
  | some source => some source
  | none => clause.children.find? fun c => c.kind == "string"

def childrenOfKind (kind : String) (t : Tree α) : List (Tree α) :=
  t.children.filter fun c => c.kind == kind

/-- The node that holds the specifier of an import statement: its own source, or that of its first
`require` clause with one. -/
def sourceNode? (statement : Tree α) : Option (Tree α) :=
  match statement.child? "source" with
  | some source => some source
  | none => (childrenOfKind "import_require_clause" statement).findSome? requireSource?

/-- The name that the last `require` clause of a statement binds. -/
def requireName? (statement : Tree α) : Option String :=
  match (childrenOfKind "import_require_clause" statement).getLast? with
  | some clause => (clause.children.find? fun c => c.kind == "identifier").map Tree.text
  | none => none

/-- The record of an import statement; `resolve` finds the path of a specifier. -/
def importRecord? (resolve : String → Option String) (statement : Tree α) : Option ImportRecord :=
  if statement.kind == "import_statement" then
    (sourceNode? statement).map fun source =>
      let specifier := stripQuotes source.text
      let record : ImportRecord :=
        { specifier, line := statement.info.startRow + 1
          typeOnly := statement.children.any fun c => c.kind == "type" }
      let record := (childrenOfKind "import_clause" statement).foldl addClause record
      let record :=
        match requireName? statement with
        | some name => { record with defaultName := some name }
        | none => record
      { record with resolvedPath := resolve specifier }
  else none

/-- The records of the import statements at the top level of a file, in source order. -/
def importRecords (resolve : String → Option String) (root : Tree α) : List ImportRecord :=
  root.children.filterMap (importRecord? resolve)

end SourceAtlas.Syntax
