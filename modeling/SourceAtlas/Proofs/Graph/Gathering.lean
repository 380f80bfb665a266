/-
# What the nodes under one key come to

A graph merges a node into the one that stands under its key, node after node. What stands there in
the end can be said without merging: the first node that is no placeholder decides the variant, and
the nodes of that variant decide everything else. A file has the name and path of the first of them
and the contents of the last, a declaration has what any of them found, and a placeholder is
internal if one of them is and broken if all of them are.

The nodes of other variants, and everything that happens under other keys, leave no trace.
-/

import Mathlib.Data.List.Induction
import SourceAtlas.Proofs.Graph.Rebuilding

namespace SourceAtlas.Graph

/-- The first line that is known; zero if none is. -/
def firstKnownLine (lines : List Int) : Int := (lines.find? (· != 0)).getD 0

/-- The largest of some lines; zero if there are none. -/
def largestLine (lines : List Int) : Int := lines.max?.getD 0

def allNames (sets : List NameSet) : NameSet := .ofList (sets.flatMap NameSet.toList)

/-- A file that was parsed again has its first name and path, and the contents of the last time. -/
def FileNode.gather (first : FileNode) (later : List FileNode) : FileNode :=
  let last := later.getLastD first
  { name := first.name, path := first.path, lineCount := last.lineCount, imports := last.imports
    dependencies := last.dependencies }

def ComponentDetails.gather (found : List ComponentDetails) : ComponentDetails where
  hooks := allNames (found.map hooks)
  stateVariables := allNames (found.map stateVariables)
  stateSetters := allNames (found.map stateSetters)
  incomingProps := allNames (found.map incomingProps)
  childProps := allNames (found.map childProps)

def ComponentNode.gather (first : ComponentNode) (later : List ComponentNode) : ComponentNode where
  name := first.name
  path := first.path
  startLine := firstKnownLine ((first :: later).map startLine)
  endLine := largestLine ((first :: later).map endLine)
  details := .gather ((first :: later).map details)

def UtilityNode.gather (first : UtilityNode) (later : List UtilityNode) : UtilityNode where
  name := first.name
  path := first.path
  startLine := firstKnownLine ((first :: later).map startLine)
  endLine := largestLine ((first :: later).map endLine)

def ModuleNode.gather (first : ModuleNode) (later : List ModuleNode) : ModuleNode where
  name := first.name
  path := first.path
  internal := (first :: later).any internal
  broken := (first :: later).all broken

namespace Node

def file? : Node → Option FileNode
  | .file n => some n
  | _ => none

def component? : Node → Option ComponentNode
  | .component n => some n
  | _ => none

def utility? : Node → Option UtilityNode
  | .utility n => some n
  | _ => none

def module? : Node → Option ModuleNode
  | .module n => some n
  | _ => none

/-- The variant of the first node that is no placeholder. -/
def leadingKind (nodes : List Node) : NodeKind :=
  ((nodes.find? isSolid).map kind).getD .module

/-- What comes of the first of some items and the later ones; nothing if there are none. -/
def gatherAll {α : Type} (gather : α → List α → α) : List α → Option α
  | [] => none
  | first :: later => some (gather first later)

/-- The node that the nodes of a history come to. Only those of the leading kind take part in it;
all others leave no trace. -/
def gather (nodes : List Node) : Option Node :=
  match leadingKind nodes with
  | .file => (gatherAll FileNode.gather (nodes.filterMap file?)).map .file
  | .component => (gatherAll ComponentNode.gather (nodes.filterMap component?)).map .component
  | .utility => (gatherAll UtilityNode.gather (nodes.filterMap utility?)).map .utility
  | .module => (gatherAll ModuleNode.gather (nodes.filterMap module?)).map .module

end Node

theorem firstKnownLine_singleton (line : Int) : firstKnownLine [line] = line := by
  by_cases unknown : line = 0 <;> simp [firstKnownLine, unknown]

theorem firstKnownLine_concat (lines : List Int) (line : Int) :
    firstKnownLine (lines ++ [line]) = mergeStart (firstKnownLine lines) line := by
  rw [firstKnownLine, firstKnownLine, List.find?_append]
  cases found : lines.find? (· != 0) with
  | some first =>
      have known : first ≠ 0 := by simpa using List.find?_some found
      simp [mergeStart, known]
  | none => by_cases unknown : line = 0 <;> simp [mergeStart, unknown]

theorem largestLine_concat (first : Int) (lines : List Int) (line : Int) :
    largestLine (first :: lines ++ [line]) = max (largestLine (first :: lines)) line := by
  rw [largestLine, largestLine, List.cons_append, List.max?_cons', List.max?_cons',
    List.foldl_append]
  rfl

theorem mem_allNames {sets : List NameSet} {name : String} :
    name ∈ (allNames sets).toList ↔ ∃ s ∈ sets, name ∈ s.toList := by
  rw [allNames, NameSet.mem_ofList, List.mem_flatMap]

theorem allNames_singleton (s : NameSet) : allNames [s] = s :=
  NameSet.ext fun name => by simp [mem_allNames]

theorem allNames_concat (sets : List NameSet) (s : NameSet) :
    allNames (sets ++ [s]) = (allNames sets).union s :=
  NameSet.ext fun name => by simp [mem_allNames, or_and_right, exists_or]

theorem ComponentDetails.gather_singleton (d : ComponentDetails) : gather [d] = d := by
  simp [gather, allNames_singleton]

theorem ComponentDetails.gather_concat (found : List ComponentDetails) (d : ComponentDetails) :
    gather (found ++ [d]) = (gather found).merge d := by
  simp [gather, merge, allNames_concat]

theorem FileNode.foldl_merge (first : FileNode) (later : List FileNode) :
    later.foldl merge first = first.gather later := by
  induction later using List.reverseRecOn with
  | nil => rfl
  | append_singleton earlier last ih =>
      rw [List.foldl_append, List.foldl_cons, List.foldl_nil, ih]
      simp [gather, merge]

theorem ComponentNode.foldl_merge (first : ComponentNode) (later : List ComponentNode) :
    later.foldl merge first = first.gather later := by
  induction later using List.reverseRecOn with
  | nil =>
      simp [gather, firstKnownLine_singleton, largestLine, ComponentDetails.gather_singleton]
  | append_singleton earlier last ih =>
      rw [List.foldl_append, List.foldl_cons, List.foldl_nil, ih]
      simp only [gather, merge, List.map_cons, List.map_append, List.map_nil, ← List.cons_append,
        firstKnownLine_concat, largestLine_concat, ComponentDetails.gather_concat]

theorem UtilityNode.foldl_merge (first : UtilityNode) (later : List UtilityNode) :
    later.foldl merge first = first.gather later := by
  induction later using List.reverseRecOn with
  | nil =>
      simp [gather, firstKnownLine_singleton, largestLine]
  | append_singleton earlier last ih =>
      rw [List.foldl_append, List.foldl_cons, List.foldl_nil, ih]
      simp only [gather, merge, List.map_cons, List.map_append, List.map_nil, ← List.cons_append,
        firstKnownLine_concat, largestLine_concat]

theorem ModuleNode.foldl_merge (first : ModuleNode) (later : List ModuleNode) :
    later.foldl merge first = first.gather later := by
  induction later using List.reverseRecOn with
  | nil => simp [gather]
  | append_singleton earlier last ih =>
      rw [List.foldl_append, List.foldl_cons, List.foldl_nil, ih]
      simp [gather, merge, Bool.or_assoc, Bool.and_assoc]

namespace Node

theorem kind_of_foldl_settle_none {nodes : List Node} {n : Node}
    (found : nodes.foldl settle none = some n) : n.kind = leadingKind nodes := by
  have solids := filter_foldl_settle none nodes
  rw [found, Option.filter_none] at solids
  have leads : nodes.find? isSolid = (nodes.filter isSolid).head? := by rw [List.head?_filter]
  rw [leadingKind, leads]
  cases among : nodes.filter isSolid with
  | nil =>
      have loose : n.isSolid = false := by simpa [among, Option.filter] using solids
      simpa [isSolid] using loose
  | cons first later =>
      have firstSolid : first.isSolid = true :=
        (List.mem_filter.mp (among ▸ List.mem_cons_self)).2
      rw [among, List.foldl_cons] at solids
      have remains : later.foldl settle (some first) = some n := by
        cases later_settles : later.foldl settle (some first) with
        | none => cases (DependencyGraph.foldl_settle_eq_none_iff.mp later_settles).1
        | some m =>
            have same : (some n).filter isSolid = some m := solids.trans later_settles
            exact congrArg some (Option.some.inj (Option.filter_eq_some_iff.mp same).1).symm
      simpa using kind_of_foldl_settle firstSolid remains

/-- Nodes of one variant come to the node that their contents come to. -/
theorem foldl_settle_map {α : Type} {inject : α → Node} {merge : α → α → α}
    {collect : α → List α → α} (absorbs : ∀ a b, (inject a).absorb (inject b) = inject (merge a b))
    (merges : ∀ first later, later.foldl merge first = collect first later) (items : List α) :
    (items.map inject).foldl settle none = (gatherAll collect items).map inject := by
  have from_some (first : α) (later : List α) :
      (later.map inject).foldl settle (some (inject first)) =
        some (inject (later.foldl merge first)) := by
    induction later generalizing first with
    | nil => rfl
    | cons next rest ih =>
        rw [List.map_cons, List.foldl_cons, settle, absorbs, ih, List.foldl_cons]
  cases items with
  | nil => rfl
  | cons first later =>
      rw [List.map_cons, List.foldl_cons, settle, from_some, merges]
      rfl

theorem filter_kind_eq_map {α : Type} (inject : α → Node) (project : Node → Option α)
    {k : NodeKind} (projects : ∀ n, (project n).map inject = if n.kind = k then some n else none)
    (nodes : List Node) :
    nodes.filter (·.kind = k) = (nodes.filterMap project).map inject := by
  rw [List.map_filterMap, funext projects]
  induction nodes with
  | nil => rfl
  | cons n rest ih => by_cases same : n.kind = k <;> simp [same, ih]

/-- The nodes of the leading variant come to what the closed form says. -/
theorem foldl_settle_leading (nodes : List Node) :
    (nodes.filter (·.kind = leadingKind nodes)).foldl settle none = gather nodes := by
  rw [gather]
  cases leadingKind nodes with
  | file =>
      rw [filter_kind_eq_map .file file? fun n => by cases n <;> rfl]
      exact foldl_settle_map (fun _ _ => rfl) FileNode.foldl_merge _
  | component =>
      rw [filter_kind_eq_map .component component? fun n => by cases n <;> rfl]
      exact foldl_settle_map (fun _ _ => rfl) ComponentNode.foldl_merge _
  | utility =>
      rw [filter_kind_eq_map .utility utility? fun n => by cases n <;> rfl]
      exact foldl_settle_map (fun _ _ => rfl) UtilityNode.foldl_merge _
  | module =>
      rw [filter_kind_eq_map .module module? fun n => by cases n <;> rfl]
      exact foldl_settle_map (fun _ _ => rfl) ModuleNode.foldl_merge _

theorem foldl_settle_none (nodes : List Node) : nodes.foldl settle none = gather nodes := by
  rw [← foldl_settle_leading]
  cases found : nodes.foldl settle none with
  | none =>
      rw [(DependencyGraph.foldl_settle_eq_none_iff.mp found).2]
      rfl
  | some n =>
      have remains := foldl_settle_filter_kind found
      rw [kind_of_foldl_settle_none found] at remains
      exact remains.symm

end Node

namespace DependencyGraph

def addNodes (g : DependencyGraph) (added : List (String × Node)) : DependencyGraph :=
  added.foldl (fun g entry => g.addNode entry.1 entry.2) g

def addedAt (key : String) (added : List (String × Node)) : List Node :=
  (added.filter fun entry => entry.1 = key).map Prod.snd

theorem node?_addNodes (g : DependencyGraph) (added : List (String × Node)) (key : String) :
    (g.addNodes added).node? key = (addedAt key added).foldl Node.settle (g.node? key) := by
  induction added generalizing g with
  | nil => rfl
  | cons entry rest ih =>
      have step : (g.addNodes (entry :: rest)).node? key =
          ((g.addNode entry.1 entry.2).addNodes rest).node? key := rfl
      rw [step, ih, node?_addNode]
      by_cases here : entry.1 = key
      · simp [addedAt, here]
      · have away : ¬ key = entry.1 := fun same => here same.symm
        simp [addedAt, here, away]

end DependencyGraph

open DependencyGraph in
/-- **What stands under a key is told by the nodes that were added there.** The first of them that
is no placeholder decides the variant, the nodes of that variant decide the contents in the way that
`Node.gather` says, and nothing else has an effect. -/
theorem node?_addNodes_eq_gather (added : List (String × Node)) (key : String) :
    (addNodes {} added).node? key = Node.gather (addedAt key added) := by
  rw [node?_addNodes, ← Node.foldl_settle_none]
  rfl

/-- A placeholder gives way to a file, a declaration of the same key changes nothing, and the file
has the contents of the last time. -/
example (first last : FileNode) (d : UtilityNode) (m : ModuleNode) :
    Node.gather [.module m, .file first, .utility d, .file last, .module m] =
      some (.file { last with name := first.name, path := first.path }) := rfl

end SourceAtlas.Graph
