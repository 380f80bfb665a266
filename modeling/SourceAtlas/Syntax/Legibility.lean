/-
# Which texts are read

A node may cover bytes that are no text. That is a fault only if its text is read. Here is listed
which texts each question about a tree reads, in the order in which it reads them; the first of them
that is no text is the fault of the question.
-/

import SourceAtlas.Syntax.Declaration
import SourceAtlas.Syntax.Import

namespace SourceAtlas.Syntax

open SourceAtlas.Graph

variable {α : Type}

/-- The first fault among texts that are read. -/
def firstFault? (texts : List (Tree α)) : Option Text.Utf8Fault :=
  texts.findSome? fun t => t.info.fault

/-- An answer, unless one of the texts that it needs is none. -/
def ifLegible {β : Type} (texts : List (Tree α)) (answer : β) : Except Text.Utf8Fault β :=
  match firstFault? texts with
  | some fault => .error fault
  | none => .ok answer

/-- What is read to find the hook of a call. -/
def hookTexts (call : Tree α) : List (Tree α) :=
  match call.child? "function" with
  | none => []
  | some callee =>
    if callee.kind == "identifier" then [callee]
    else if callee.kind == "member_expression" then
      match callee.child? "object", callee.child? "property" with
      | some object, some property =>
        if object.kind == "identifier" then
          property :: if property.text.startsWith "use" then [callee] else []
        else []
      | _, _ => []
    else []

def stateTexts (declarator : Tree α) : List (Tree α) :=
  match declarator.child? "value", declarator.child? "name" with
  | some value, some name =>
    if value.kind == "call_expression" && name.kind == "array_pattern" then
      match value.child? "function" with
      | none => []
      | some callee =>
        if callee.kind == "identifier" then
          let bound := ((patternElements name).take 2).filterMap id
          callee ::
            if callee.text == "useState" then bound.filter fun t => t.kind == "identifier" else []
        else []
    else []
  | _, _ => []

/-- What is read to find the props that a function announces. -/
def propTexts (function : Tree α) : List (Tree α) :=
  if classKinds.contains function.kind then []
  else
    match propsType? function with
    | none => []
    | some type =>
      (type.namedChildren.filter fun m => (memberName? m).isSome).filterMap (·.child? "name")

def detailTexts (t : Tree α) : List (Tree α) :=
  if t.kind == "jsx_attribute" then t.namedChildren.head?.toList
  else if t.kind == "call_expression" then hookTexts t
  else if t.kind == "variable_declarator" then stateTexts t
  else []

/-- What is read to see what a declaration shows. -/
def componentTexts (declaration function : Tree α) : List (Tree α) :=
  declaration.nodes.flatMap detailTexts ++ propTexts function

def candidateTexts (t : Tree α) : List (Tree α) :=
  if (candidate? t).isSome then (t.child? "name").toList else []

def classifyTexts (t : Tree α) : List (Tree α) :=
  match candidate? t with
  | none => []
  | some candidate =>
    candidateTexts t ++
      if isComponent candidate.function then componentTexts t candidate.function else []

/-- What is read to find all declarations of a file. -/
def declarationTexts (root : Tree α) : List (Tree α) := root.nodes.flatMap classifyTexts

def clauseChildTexts (child : Tree α) : List (Tree α) :=
  if child.kind == "identifier" then [child]
  else if child.kind == "named_imports" then
    (childrenOfKind "import_specifier" child).filterMap specifierNode?
  else if child.kind == "namespace_import" then childrenOfKind "identifier" child
  else []

/-- What is read of the name that the last `require` clause of a statement binds. -/
def requireTexts (statement : Tree α) : List (Tree α) :=
  match (childrenOfKind "import_require_clause" statement).getLast? with
  | some clause => (clause.children.find? fun c => c.kind == "identifier").toList
  | none => []

def importTexts (statement : Tree α) : List (Tree α) :=
  if statement.kind == "import_statement" then
    match sourceNode? statement with
    | none => []
    | some source =>
      let clauses := childrenOfKind "import_clause" statement
      source :: ((clauses.flatMap Tree.children).flatMap clauseChildTexts) ++
        requireTexts statement
  else []

/-- What is read to find all imports of a file. -/
def importsTexts (root : Tree α) : List (Tree α) := root.children.flatMap importTexts

end SourceAtlas.Syntax
