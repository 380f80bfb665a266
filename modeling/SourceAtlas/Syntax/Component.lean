/-
# What a component uses

The names that a declaration shows in its syntax tree: the hooks it calls, the state variables and
setters it binds, the props that its first parameter announces and the props it hands to the
elements it renders.
-/

import SourceAtlas.Syntax.Tree
import SourceAtlas.Graph.Node

namespace SourceAtlas.Syntax

open SourceAtlas.Graph

variable {α : Type}

def parameterKinds : List String := ["required_parameter", "optional_parameter"]

/-- One child of an array pattern: a comma opens the next position, brackets and comments count for
nothing, and anything else fills the current position. Positions stand in reverse. -/
def addPatternChild (positions : List (Option (Tree α))) (child : Tree α) :
    List (Option (Tree α)) :=
  if child.kind == "," then none :: positions
  else if child.kind == "[" || child.kind == "]" || child.kind == "comment" then positions
  else some child :: positions.tail

/-- The elements of an array pattern by position; a hole is none. -/
def patternElements (pattern : Tree α) : List (Option (Tree α)) :=
  (pattern.children.foldl addPatternChild [none]).reverse

def identifierText? (t : Tree α) : Option String :=
  if t.kind == "identifier" then some t.text else none

/-- The hook that a call calls: a name that starts with `use`, or a member of a plain name whose own
name does. -/
def hookName? (call : Tree α) : Option String :=
  match call.child? "function" with
  | none => none
  | some callee =>
    if callee.kind == "identifier" then
      if callee.text.startsWith "use" then some callee.text else none
    else if callee.kind == "member_expression" then
      match callee.child? "object", callee.child? "property" with
      | some object, some property =>
        if object.kind == "identifier" && property.text.startsWith "use" then some callee.text
        else none
      | _, _ => none
    else none

/-- The names that a declarator binds to the state and to its setter, when it takes apart the
result of `useState`. -/
def stateBindings (declarator : Tree α) : Option String × Option String :=
  match declarator.child? "value", declarator.child? "name" with
  | some value, some name =>
    if value.kind == "call_expression" && name.kind == "array_pattern" then
      match value.child? "function" with
      | none => (none, none)
      | some callee =>
        if callee.kind == "identifier" && callee.text == "useState" then
          let elements := patternElements name
          let nameAt (i : Nat) : Option String := (elements[i]?.getD none).bind identifierText?
          (nameAt 0, nameAt 1)
        else (none, none)
    else (none, none)
  | _, _ => (none, none)

/-- The type inside a type annotation; any other tree stands for itself. -/
def annotatedType? (wrapper : Tree α) : Option (Tree α) :=
  if wrapper.kind == "type_annotation" then wrapper.namedChildren.head? else some wrapper

def memberName? (member : Tree α) : Option String :=
  if member.kind == "property_signature" || member.kind == "method_signature" then
    match member.child? "name" with
    | some name => if name.kind == "property_identifier" then some name.text else none
    | none => none
  else none

/-- The first parameter of a function; comments do not count. -/
def firstParameter? (function : Tree α) : Option (Tree α) :=
  match function.child? "parameters" with
  | none => none
  | some parameters => parameters.namedChildren.find? fun c => c.kind != "comment"

/-- The object type written at the first parameter of a function. -/
def propsType? (function : Tree α) : Option (Tree α) :=
  match firstParameter? function with
  | none => none
  | some parameter =>
    if parameterKinds.contains parameter.kind then
      match (parameter.child? "type").bind annotatedType? with
      | some type => if type.kind == "object_type" then some type else none
      | none => none
    else none

/-- The property names that the first parameter's object type announces; a class has none. -/
def incomingProps (function : Tree α) : NameSet :=
  if classKinds.contains function.kind then NameSet.empty
  else
    match propsType? function with
    | none => NameSet.empty
    | some type => NameSet.ofList (type.namedChildren.filterMap memberName?)

def attributeName? (t : Tree α) : Option String :=
  if t.kind == "jsx_attribute" then t.namedChildren.head?.map Tree.text else none

/-- Puts a name into a set if it is there and not empty. -/
def insertKnown (s : NameSet) : Option String → NameSet
  | some name => if name == "" then s else s.insert name
  | none => s

/-- Adds what one node shows. -/
def addDetails (d : ComponentDetails) (t : Tree α) : ComponentDetails :=
  if t.kind == "jsx_attribute" then
    match attributeName? t with
    | some name => { d with childProps := d.childProps.insert name }
    | none => d
  else if t.kind == "call_expression" then
    { d with hooks := insertKnown d.hooks (hookName? t) }
  else if t.kind == "variable_declarator" then
    let (state, setter) := stateBindings t
    { d with
      stateVariables := insertKnown d.stateVariables state
      stateSetters := insertKnown d.stateSetters setter }
  else d

/-- Everything that a declaration shows, with the props of the function that carries its
parameters. -/
def componentDetails (declaration function : Tree α) : ComponentDetails :=
  { declaration.nodes.foldl addDetails {} with incomingProps := incomingProps function }

end SourceAtlas.Syntax
