/-
# Syntax trees

A syntax tree of any shape: each node has a kind, the text it covers, the rows where it starts and
ends, and children in source order, some of which carry a field name. Every node also carries a
label of the builder's choice, which nothing here looks at.

Trees are visited with an explicit stack, so that a very deep tree needs no deep recursion. The
stack shrinks in total size with every visit, which is why the visit ends.
-/

import SourceAtlas.Text.Utf8

namespace SourceAtlas.Syntax

/-- What a node says about itself. -/
structure NodeInfo (α : Type) where
  label : α
  kind : String
  /-- The covered text; some nodes cover none. -/
  text : Option String
  /-- Why the covered bytes are no text, if they are none. -/
  fault : Option Text.Utf8Fault := none
  startRow : Nat
  endRow : Nat
  /-- Whether the node is more than a bare token. -/
  named : Bool
  /-- The role of the node in its parent. -/
  field : Option String

/-- A node and its children. -/
inductive Tree (α : Type) where
  | node (info : NodeInfo α) (children : List (Tree α))

namespace Tree

variable {α : Type}

def info : Tree α → NodeInfo α
  | .node info _ => info

/-- The children, in source order. -/
def children : Tree α → List (Tree α)
  | .node _ children => children

def kind (t : Tree α) : String := t.info.kind

/-- The text that the tree covers; the empty text if it covers none. -/
def text (t : Tree α) : String := t.info.text.getD ""

/-- The first child with a field name. -/
def child? (field : String) (t : Tree α) : Option (Tree α) :=
  t.children.find? fun c => c.info.field == some field

/-- The children that are more than bare tokens. -/
def namedChildren (t : Tree α) : List (Tree α) :=
  t.children.filter fun c => c.info.named

mutual

def size : Tree α → Nat
  | .node _ children => sizes children + 1

def sizes : List (Tree α) → Nat
  | [] => 0
  | t :: rest => size t + sizes rest

end

/-- Sizes add up. -/
theorem sizes_append (a b : List (Tree α)) : sizes (a ++ b) = sizes a + sizes b := by
  induction a with
  | nil => simp [sizes]
  | cons t rest ih => simp [sizes, ih, Nat.add_assoc]

/-- A tree has one node more than its children together. -/
theorem sizes_children_lt_size (t : Tree α) : sizes t.children < size t := by
  cases t with
  | node info children => simp [size, Tree.children]

/-- Visits the trees on the stack from the top; the nodes visited so far stand in reverse. The
children of a node are visited only if `descend` allows it. -/
def visit (descend : Tree α → Bool) (stack done : List (Tree α)) : List (Tree α) :=
  match stack with
  | [] => done.reverse
  | t :: rest =>
    if descend t then visit descend (t.children ++ rest) (t :: done)
    else visit descend rest (t :: done)
termination_by sizes stack
decreasing_by
  · have := sizes_children_lt_size t
    simp only [sizes_append, sizes]
    omega
  · have := sizes_children_lt_size t
    simp only [sizes]
    omega

/-- The nodes of a tree in pre-order. The children of the root are always visited; those of any
other node only if `descend` allows it. -/
def preorder (descend : Tree α → Bool) (t : Tree α) : List (Tree α) :=
  visit descend t.children [t]

/-- All nodes of a tree in pre-order. -/
def nodes (t : Tree α) : List (Tree α) :=
  t.preorder fun _ => true

/-- The first node in pre-order with one of the wanted kinds. -/
def findFirst? (wanted : List String) (descend : Tree α → Bool) (t : Tree α) : Option (Tree α) :=
  (t.preorder descend).find? fun n => wanted.contains n.kind

def containsKind (wanted : List String) (t : Tree α) : Bool :=
  (t.findFirst? wanted fun _ => true).isSome

end Tree

/-- The kinds of nodes that open a function scope. -/
def functionKinds : List String :=
  ["function_declaration", "generator_function_declaration", "function_expression", "function",
    "generator_function", "arrow_function", "method_definition"]

def classKinds : List String :=
  ["class_declaration", "abstract_class_declaration", "class"]

def markupKinds : List String :=
  ["jsx_element", "jsx_self_closing_element"]

/-- Stays out of nested function scopes. -/
def outsideFunctions {α : Type} (t : Tree α) : Bool :=
  !functionKinds.contains t.kind

/-- Enters methods but no other function scope. -/
def withinClass {α : Type} (t : Tree α) : Bool :=
  t.kind == "method_definition" || outsideFunctions t

end SourceAtlas.Syntax
