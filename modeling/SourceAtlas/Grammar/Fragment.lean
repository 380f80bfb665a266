/-
# Fragments of a tree

While a text is read, the parser holds fragments: tokens and phrases that have been read but whose
place in the tree is not settled. What a fragment looks like as a node depends on the rule that
takes it up, so a fragment keeps only the nodes inside it.
-/

import SourceAtlas.Grammar.Lexeme
import SourceAtlas.Grammar.Tables

namespace SourceAtlas.Grammar

/-- Nodes in a row, whose roles may still change. -/
inductive Parts where
  | none
  | node (tree : Tree)
  /-- A node that plays no role, whatever stands around it. -/
  | aside (tree : Tree)
  | both (first second : Parts)
  /-- Nodes in a role. -/
  | inRole (role : String) (parts : Parts)

/-- The nodes in front of others. A role that is given further outside counts. -/
def Parts.before (role : Option String) : Parts → List Tree → List Tree
  | .none, rest => rest
  | .node (.node info children), rest => .node { info with field := role } children :: rest
  | .aside tree, rest => tree :: rest
  | .both first second, rest => first.before role (second.before role rest)
  | .inRole inner parts, rest => parts.before (role <|> some inner) rest

/-- Something that has been read. -/
structure Fragment where
  symbol : Nat
  /-- Where the white space before it starts. -/
  lead : Nat
  span : Span
  /-- How much this reading is liked. -/
  weight : Int
  /-- Whether it may stand anywhere. -/
  extra : Bool
  /-- How many fragments it is made of. -/
  arity : Nat
  /-- The nodes inside it. -/
  parts : Parts

/-- Whether two fragments read the same text as the same thing, though perhaps in other ways. -/
def Fragment.alike (a b : Fragment) : Bool :=
  a.symbol == b.symbol && a.lead == b.lead && a.span == b.span && a.arity == b.arity &&
    a.extra == b.extra

def Fragment.ofToken (symbol lead : Nat) (span : Span) (extra : Bool) : Fragment :=
  { symbol, lead, span, weight := 0, extra, arity := 0, parts := .none }

/-- A node of a kind over what a fragment covers. -/
def Fragment.tree (f : Fragment) (s : Source) (shown : Shown) : Tree :=
  .node
    { label := f.span
      kind := shown.kind
      text := some (s.slice f.span)
      startRow := s.rowAt f.span.start
      endRow := s.rowAt f.span.stop
      named := shown.named
      field := none }
    (f.parts.before none [])

namespace Tables

variable (t : Tables)

/-- The kind of the nodes of a symbol; none if it makes no node of its own. -/
def shown? (symbol : Nat) : Option Shown :=
  match t.terminals[symbol]? with
  | some terminal => terminal.shown?
  | none =>
    match t.phrases[symbol - t.terminals.size]? with
    | some phrase => if phrase.hidden then none else some ⟨phrase.name, true⟩
    | none => none

/-- What a fragment that may stand anywhere adds to a node. -/
def asideParts (s : Source) (f : Fragment) : Parts :=
  match t.shown? f.symbol with
  | some shown => .aside (f.tree s shown)
  | none => .none

/-- What a fragment adds to a node as a part of a production. -/
def stepParts (s : Source) (step : Step) (f : Fragment) : Parts :=
  let inner := match step.shown <|> t.shown? f.symbol with
    | some shown => Parts.node (f.tree s shown)
    | none => f.parts
  match step.role with
  | some role => .inRole role inner
  | none => inner

/-- What fragments add to a node as the parts of a production. -/
def partsOf (s : Source) : List Step → List Fragment → Parts
  | _, [] => .none
  | steps, f :: rest =>
    if f.extra then .both (t.asideParts s f) (partsOf s steps rest)
    else
      match steps with
      | step :: others => .both (t.stepParts s step f) (partsOf s others rest)
      | [] => partsOf s [] rest

def phraseFragment (s : Source) (item : Item) (production : Production) (children : List Fragment) :
    Fragment :=
  let first := (children.head?.map fun f => (f.lead, f.span.start)).getD (0, 0)
  { symbol := item.head
    lead := first.1
    span := ⟨first.2, (children.getLast?.map fun f => f.span.stop).getD 0⟩
    weight := children.foldl (fun sum f => sum + f.weight) production.weight
    extra := false
    arity := children.length
    parts := t.partsOf s production.steps children }

end Tables

end SourceAtlas.Grammar
