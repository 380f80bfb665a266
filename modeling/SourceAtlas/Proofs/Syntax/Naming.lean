/-
# Names and keys of declarations

The key of a declaration starts with its name, and the name is the text of a node in the role of a
name. So where no such node starts with a slash, no declaration is stored under an absolute path; it
is enough that no declaration has such a name.
-/

import SourceAtlas.Proofs.Syntax.Preorder
import SourceAtlas.Syntax.Declaration

namespace SourceAtlas.Syntax

open SourceAtlas.Graph

variable {α : Type}

/-- A text does not start with a slash. -/
def NoSlashFirst (text : String) : Prop := text.toList.head? ≠ some '/'

/-- A node in the role of a name does not start with a slash. -/
def Tree.NamedWell (t : Tree α) : Prop := t.info.field = some "name" → NoSlashFirst t.text

/-- No node in the role of a name starts with a slash, anywhere below the root. -/
def Tree.NamesWell (t : Tree α) : Prop :=
  ∀ address s, t.subtree? address = some s → ∀ c ∈ s.children, c.NamedWell

theorem Tree.namesWell_node {info : NodeInfo α} {children : List (Tree α)}
    (all : ∀ c ∈ children, c.NamedWell ∧ c.NamesWell) : (Tree.node info children).NamesWell := by
  intro address s found c child
  cases address with
  | nil =>
      cases found
      exact (all c child).1
  | cons i rest =>
      obtain ⟨inner, stored, below⟩ := subtree?_cons_eq_some_iff.mp found
      exact (all inner (List.mem_of_getElem? stored)).2 rest s below c child

/-- Only what is below the root counts. -/
theorem Tree.NamesWell.of_children_eq {t u : Tree α} (well : t.NamesWell)
    (same : u.children = t.children) : u.NamesWell := by
  intro address s found c child
  cases address with
  | nil =>
      cases found
      rw [same] at child
      exact well [] t rfl c child
  | cons i rest =>
      obtain ⟨inner, stored, below⟩ := subtree?_cons_eq_some_iff.mp found
      rw [same] at stored
      exact well (i :: rest) s (subtree?_cons_eq_some_iff.mpr ⟨inner, stored, below⟩) c child

/-- A declaration has the name of one of its parts. -/
theorem noSlashFirst_of_candidate? {t : Tree α} (well : ∀ c ∈ t.children, c.NamedWell)
    {candidate : Candidate α} (found : candidate? t = some candidate) :
    NoSlashFirst candidate.name := by
  have named {c : Tree α} (child : t.child? "name" = some c) : NoSlashFirst c.text := by
    have role : (c.info.field == some "name") = true := by simpa using List.find?_some child
    exact well c (List.mem_of_find?_eq_some child) (eq_of_beq role)
  rw [candidate?] at found
  split at found
  · obtain ⟨c, child, rfl⟩ := Option.map_eq_some_iff.mp found
    exact named child
  · split at found
    · split at found
      · rename_i name value isName _
        split at found
        · cases found
          exact named isName
        · cases found
      · cases found
    · cases found

theorem noSlashFirst_declarationKey {name : String} (well : NoSlashFirst name) (path : String) :
    NoSlashFirst (Node.declarationKey name path) := by
  rw [NoSlashFirst, Node.declarationKey, String.toList_append, String.toList_append]
  cases chars : name.toList with
  | nil =>
      rw [List.nil_append, show ":".toList = [':'] from rfl]
      intro slash
      cases slash
  | cons c rest =>
      rw [NoSlashFirst, chars] at well
      exact well

/-- No declaration in a tree has a name that starts with a slash. -/
def Tree.DeclaresWell (root : Tree α) : Prop :=
  ∀ t ∈ root.nodes, ∀ candidate, candidate? t = some candidate → NoSlashFirst candidate.name

theorem Tree.NamesWell.declaresWell {root : Tree α} (well : root.NamesWell) :
    root.DeclaresWell := by
  intro t visited candidate isOne
  obtain ⟨address, there⟩ := Tree.mem_nodes_iff.mp visited
  exact noSlashFirst_of_candidate? (well address t there) isOne

/-- No declaration of a tree is stored under an absolute path. -/
theorem noSlashFirst_of_mem_declarations {root : Tree α} (well : root.DeclaresWell)
    {path : String} {node : Node} (listed : node ∈ declarations path root) :
    NoSlashFirst node.uniqueId := by
  obtain ⟨t, visited, found⟩ := List.mem_filterMap.mp listed
  obtain ⟨candidate, isOne, rfl⟩ := Option.map_eq_some_iff.mp found
  have named := well t visited candidate isOne
  split
  · exact noSlashFirst_declarationKey named path
  · exact noSlashFirst_declarationKey named path

end SourceAtlas.Syntax
