/-
# Declarations

Finds the named declarations of a file and tells components from utilities. A declaration is a
component if what it renders holds markup: the body of an arrow function that is an expression, or
else the first return statement that belongs to the function itself.
-/

import SourceAtlas.Syntax.Component

namespace SourceAtlas.Syntax

open SourceAtlas.Graph

variable {α : Type}

def functionDeclarationKinds : List String :=
  ["function_declaration", "generator_function_declaration"]

/-- The kinds of values that make a variable a function. -/
def functionValueKinds : List String :=
  ["arrow_function", "function_expression", "function", "generator_function"]

/-- A named declaration and the function or class that it declares. -/
structure Candidate (α : Type) where
  name : String
  function : Tree α

/-- The named declaration that a node is, if it is one: a function or class with a name, or a
variable with a plain name and a function as its value. -/
def candidate? (t : Tree α) : Option (Candidate α) :=
  if functionDeclarationKinds.contains t.kind || classKinds.contains t.kind then
    (t.child? "name").map fun name => ⟨name.text, t⟩
  else if t.kind == "variable_declarator" then
    match t.child? "name", t.child? "value" with
    | some name, some value =>
      if name.kind == "identifier" && functionValueKinds.contains value.kind then
        some ⟨name.text, value⟩
      else none
    | _, _ => none
  else none

/-- The tree that decides what a function or class renders: the body of an arrow function without a
block, and the first return statement of anything else. Nested functions are passed over, except the
methods of a class. -/
def rendered? (function : Tree α) : Option (Tree α) :=
  match function.child? "body" with
  | none => none
  | some body =>
    if classKinds.contains function.kind then body.findFirst? ["return_statement"] withinClass
    else if function.kind == "arrow_function" && body.kind != "statement_block" then some body
    else body.findFirst? ["return_statement"] outsideFunctions

def isComponent (function : Tree α) : Bool :=
  match rendered? function with
  | none => false
  | some t => t.containsKind markupKinds

/-- The graph node of a declaration in the file at `path`: a component if what it renders has markup
in it, and a utility otherwise. Lines count from one. -/
def classify? (path : String) (t : Tree α) : Option Node :=
  (candidate? t).map fun candidate =>
    let startLine : Int := t.info.startRow + 1
    let endLine : Int := t.info.endRow + 1
    if isComponent candidate.function then
      .component
        { name := candidate.name, path, startLine, endLine
          details := componentDetails t candidate.function }
    else .utility { name := candidate.name, path, startLine, endLine }

/-- The graph nodes of all declarations of a file, nested ones included, in pre-order. -/
def declarations (path : String) (root : Tree α) : List Node :=
  root.nodes.filterMap (classify? path)

end SourceAtlas.Syntax
