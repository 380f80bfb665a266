/-
# What a declaration gathers

The hooks, state variables, setters and child props of a declaration are gathered in one walk over
all nodes at and beneath it. What a single node shows is told here by its shape alone: a call shows
the hook that it calls, a declarator the names that it binds to a state and its setter, and an
attribute its own name. Any other node shows nothing, and so does a malformed one.

A declaration gathers what its nodes show, each of them and nothing else. So it gathers everything
that a declaration inside it gathers.
-/

import SourceAtlas.Proofs.Syntax.Preorder
import SourceAtlas.Proofs.Text.NameSet
import SourceAtlas.Syntax.Legibility

namespace SourceAtlas.Syntax

open SourceAtlas.Graph

variable {α : Type}

/-- A call of a hook: of a plain name that starts with `use`, or of a member of a plain name whose
own name does. -/
inductive CallsHook (call : Tree α) : String → Prop where
  | plain {callee : Tree α} (calls : call.child? "function" = some callee)
      (kind : callee.kind = "identifier") (hook : callee.text.startsWith "use" = true) :
      CallsHook call callee.text
  | member {callee object property : Tree α} (calls : call.child? "function" = some callee)
      (kind : callee.kind = "member_expression") (of : callee.child? "object" = some object)
      (named : callee.child? "property" = some property) (plain : object.kind = "identifier")
      (hook : property.text.startsWith "use" = true) (visible : callee.text ≠ "") :
      CallsHook call callee.text

/-- A declarator takes the result of `useState` apart with an array pattern. -/
structure TakesState (declarator pattern : Tree α) : Prop where
  binds : declarator.child? "name" = some pattern
  kind : pattern.kind = "array_pattern"
  calls : ∃ value callee, declarator.child? "value" = some value ∧
    value.kind = "call_expression" ∧ value.child? "function" = some callee ∧
      callee.kind = "identifier" ∧ callee.text = "useState"

/-- The last of several siblings that is neither a bracket nor a comment. -/
def lastElement? (siblings : List (Tree α)) : Option (Tree α) :=
  (siblings.filter fun c => c.kind ∉ ["[", "]", "comment"]).getLast?

/-- An element stands at a position of an array pattern, where commas part the positions. -/
def StandsAt (pattern : Tree α) (position : Nat) (element : Tree α) : Prop :=
  ∃ siblings, (pattern.children.splitOnP fun c => c.kind == ",")[position]? = some siblings ∧
    lastElement? siblings = some element

/-- A declarator binds a name at a position of the result of `useState`. -/
def BindsState (declarator : Tree α) (position : Nat) (name : String) : Prop :=
  ∃ pattern element, TakesState declarator pattern ∧ StandsAt pattern position element ∧
    element.kind = "identifier" ∧ element.text = name ∧ name ≠ ""

/-- The sets that are gathered over all nodes of a declaration. -/
inductive Aspect where
  | hooks
  | stateVariables
  | stateSetters
  | childProps

def Aspect.of (details : ComponentDetails) : Aspect → NameSet
  | .hooks => details.hooks
  | .stateVariables => details.stateVariables
  | .stateSetters => details.stateSetters
  | .childProps => details.childProps

/-- A node shows a name, by its shape alone. What stands above it in the tree does not matter. -/
def Shows (t : Tree α) (name : String) : Aspect → Prop
  | .hooks => t.kind = "call_expression" ∧ CallsHook t name
  | .stateVariables => t.kind = "variable_declarator" ∧ BindsState t 0 name
  | .stateSetters => t.kind = "variable_declarator" ∧ BindsState t 1 name
  | .childProps => t.kind = "jsx_attribute" ∧ ∃ c, t.namedChildren.head? = some c ∧ c.text = name

theorem mem_insertKnown {s : NameSet} {known : Option String} {name : String} :
    name ∈ (insertKnown s known).toList ↔ name ∈ s.toList ∨ (known = some name ∧ name ≠ "") := by
  cases known with
  | none => simp [insertKnown]
  | some other =>
      by_cases empty : other = ""
      · subst empty
        simp [insertKnown]
      · have visible : name = other → name ≠ "" := fun same => same ▸ empty
        rw [insertKnown, if_neg (by simpa using empty), NameSet.mem_insert, Option.some.injEq,
          eq_comm (a := other)]
        tauto

theorem hookName?_eq_some_iff {call : Tree α} {name : String} :
    hookName? call = some name ∧ name ≠ "" ↔ CallsHook call name := by
  constructor
  · rintro ⟨hook, visible⟩
    rw [hookName?] at hook
    cases calls : call.child? "function" with
    | none =>
        rw [calls] at hook
        cases hook
    | some callee =>
        rw [calls] at hook
        dsimp only at hook
        split at hook
        · rename_i kind
          rw [Option.ite_none_right_eq_some] at hook
          obtain ⟨starts, same⟩ := hook
          cases same
          exact .plain calls (beq_iff_eq.mp kind) starts
        · split at hook
          · rename_i kind
            split at hook
            · rename_i object property of named
              rw [Option.ite_none_right_eq_some, Bool.and_eq_true, beq_iff_eq] at hook
              obtain ⟨⟨plain, starts⟩, same⟩ := hook
              cases same
              exact .member calls (beq_iff_eq.mp kind) of named plain starts visible
            · cases hook
          · cases hook
  · intro hook
    cases hook with
    | plain calls kind starts =>
        refine ⟨by simp [hookName?, calls, kind, starts], ?_⟩
        intro empty
        rw [empty] at starts
        cases starts
    | member calls kind of named plain starts visible =>
        exact ⟨by simp [hookName?, calls, kind, of, named, plain, starts], visible⟩

theorem lastElement?_cons (c : Tree α) (siblings : List (Tree α)) :
    lastElement? (c :: siblings) =
      (lastElement? siblings).or
        (if c.kind = "[" ∨ c.kind = "]" ∨ c.kind = "comment" then none else some c) := by
  by_cases skipped : c.kind = "[" ∨ c.kind = "]" ∨ c.kind = "comment"
  · rw [lastElement?, List.filter_cons_of_neg (by simpa [or_iff_not_imp_left] using skipped),
      if_pos skipped, Option.or_none, lastElement?]
  · rw [lastElement?, List.filter_cons_of_pos (by simpa using skipped), if_neg skipped,
      List.getLast?_cons, ← lastElement?]
    cases lastElement? siblings <;> rfl

/-- What has been found at the open position gives way to what is found there later. -/
theorem reverse_foldl_addPatternChild (children : List (Tree α)) (last : Option (Tree α))
    (positions : List (Option (Tree α))) :
    (children.foldl addPatternChild (last :: positions)).reverse =
      positions.reverse ++
        ((children.splitOnP fun c => c.kind == ",").map lastElement?).modifyHead (·.or last) := by
  induction children generalizing last positions with
  | nil => simp [lastElement?]
  | cons c rest ih =>
      obtain ⟨siblings, more, split⟩ :=
        List.exists_cons_of_ne_nil (List.splitOnP_ne_nil (fun c => c.kind == ",") rest)
      rw [List.foldl_cons, addPatternChild, List.splitOnP_cons_eq_if_modifyHead]
      by_cases comma : c.kind = ","
      · simp [comma, ih, split, lastElement?]
      · by_cases skipped : c.kind = "[" ∨ c.kind = "]" ∨ c.kind = "comment" <;>
          simp [comma, skipped, ih, split, lastElement?_cons, or_assoc]

theorem patternElements_eq_map (pattern : Tree α) :
    patternElements pattern =
      (pattern.children.splitOnP fun c => c.kind == ",").map lastElement? := by
  rw [patternElements, reverse_foldl_addPatternChild]
  cases (pattern.children.splitOnP fun c => c.kind == ",").map lastElement? <;> simp

/-- The name at a position of an array pattern. -/
def boundName? (pattern : Tree α) (position : Nat) : Option String :=
  ((patternElements pattern)[position]?.getD none).bind identifierText?

theorem boundName?_eq_some_iff {pattern : Tree α} {position : Nat} {name : String} :
    boundName? pattern position = some name ↔
      ∃ element, StandsAt pattern position element ∧ element.kind = "identifier" ∧
        element.text = name := by
  rw [boundName?, Option.bind_eq_some_iff, patternElements_eq_map, List.getElem?_map]
  simp only [identifierText?, Option.ite_none_right_eq_some, beq_iff_eq, Option.some.injEq,
    StandsAt]
  cases (pattern.children.splitOnP fun c => c.kind == ",")[position]? <;> simp

theorem TakesState.stateBindings_eq {declarator pattern : Tree α}
    (takes : TakesState declarator pattern) :
    stateBindings declarator = (boundName? pattern 0, boundName? pattern 1) := by
  obtain ⟨value, callee, given, call, calls, plain, state⟩ := takes.calls
  simp [stateBindings, given, takes.binds, call, takes.kind, calls, plain, state, boundName?]

theorem stateBindings_eq_none {declarator : Tree α}
    (other : ∀ pattern, ¬ TakesState declarator pattern) :
    stateBindings declarator = (none, none) := by
  rw [stateBindings]
  split
  · rename_i value pattern given binds
    split
    · rename_i kinds
      rw [Bool.and_eq_true, beq_iff_eq, beq_iff_eq] at kinds
      split
      · rfl
      · rename_i callee calls
        split
        · rename_i state
          rw [Bool.and_eq_true, beq_iff_eq, beq_iff_eq] at state
          exact absurd ⟨binds, kinds.2, value, callee, given, kinds.1, calls, state⟩ (other pattern)
        · rfl
    · rfl
  · rfl

theorem stateBindings_iff {declarator : Tree α} {name : String} :
    ((stateBindings declarator).1 = some name ∧ name ≠ "" ↔ BindsState declarator 0 name) ∧
      ((stateBindings declarator).2 = some name ∧ name ≠ "" ↔ BindsState declarator 1 name) := by
  by_cases takes : ∃ pattern, TakesState declarator pattern
  · obtain ⟨pattern, takes⟩ := takes
    have only (position : Nat) :
        boundName? pattern position = some name ∧ name ≠ "" ↔
          BindsState declarator position name := by
      rw [boundName?_eq_some_iff]
      constructor
      · rintro ⟨⟨element, stands, plain, same⟩, visible⟩
        exact ⟨pattern, element, takes, stands, plain, same, visible⟩
      · rintro ⟨other, element, also, stands, plain, same, visible⟩
        cases takes.binds.symm.trans also.binds
        exact ⟨⟨element, stands, plain, same⟩, visible⟩
    rw [takes.stateBindings_eq]
    exact ⟨only 0, only 1⟩
  · have nothing (position : Nat) : ¬ BindsState declarator position name := by
      rintro ⟨pattern, element, also, -⟩
      exact takes ⟨pattern, also⟩
    rw [stateBindings_eq_none fun pattern also => takes ⟨pattern, also⟩]
    simp [nothing]

/-- **One node adds what it shows.** -/
theorem mem_of_addDetails {details : ComponentDetails} {t : Tree α} {aspect : Aspect}
    {name : String} :
    name ∈ (aspect.of (addDetails details t)).toList ↔
      name ∈ (aspect.of details).toList ∨ Shows t name aspect := by
  by_cases element : t.kind = "jsx_attribute"
  · cases first : t.namedChildren.head? with
    | none => cases aspect <;> simp [addDetails, attributeName?, Aspect.of, Shows, element, first]
    | some c =>
        cases aspect <;>
          simp [addDetails, attributeName?, Aspect.of, Shows, element, first, NameSet.mem_insert,
            or_comm, eq_comm]
  by_cases call : t.kind = "call_expression"
  · cases aspect <;>
      simp [addDetails, Aspect.of, Shows, call, mem_insertKnown, hookName?_eq_some_iff]
  by_cases declarator : t.kind = "variable_declarator"
  · cases aspect <;>
      simp [addDetails, Aspect.of, Shows, declarator, mem_insertKnown, stateBindings_iff]
  · cases aspect <;> simp [addDetails, Aspect.of, Shows, element, call, declarator]

theorem mem_of_foldl_addDetails {nodes : List (Tree α)} {details : ComponentDetails}
    {aspect : Aspect} {name : String} :
    name ∈ (aspect.of (nodes.foldl addDetails details)).toList ↔
      name ∈ (aspect.of details).toList ∨ ∃ s ∈ nodes, Shows s name aspect := by
  induction nodes generalizing details with
  | nil => simp
  | cons t rest ih =>
      rw [List.foldl_cons, ih, mem_of_addDetails, List.exists_mem_cons_iff, or_assoc]

theorem mem_of_componentDetails {declaration function : Tree α} {aspect : Aspect} {name : String} :
    name ∈ (aspect.of (componentDetails declaration function)).toList ↔
      ∃ address s, declaration.subtree? address = some s ∧ Shows s name aspect := by
  have walk : aspect.of (componentDetails declaration function) =
      aspect.of (declaration.nodes.foldl addDetails {}) := by
    cases aspect <;> rfl
  have start : name ∉ (aspect.of {}).toList := by
    cases aspect <;> exact List.not_mem_nil
  rw [walk, mem_of_foldl_addDetails, or_iff_right start, exists_comm]
  simp only [Tree.mem_nodes_iff, exists_and_right]

theorem firstFault?_detailTexts_of_subset {nodes more : List (Tree α)} (fewer : nodes ⊆ more)
    (legible : firstFault? (more.flatMap detailTexts) = none) :
    firstFault? (nodes.flatMap detailTexts) = none := by
  rw [firstFault?, List.findSome?_eq_none_iff] at legible ⊢
  intro t read
  obtain ⟨node, listed, reads⟩ := List.mem_flatMap.mp read
  exact legible t (List.mem_flatMap_of_mem (fewer listed) reads)

/-- A named declaration of a file and its address. -/
structure DeclaredAt (root : Tree α) (address : List Nat) (declaration : Tree α)
    (candidate : Candidate α) : Prop where
  found : root.subtree? address = some declaration
  named : candidate? declaration = some candidate

/-- **A declaration gathers what all its nodes show**, and nothing else. So it gathers whatever a
declaration inside it gathers, and if it can be read then so can the nodes of the other one. -/
theorem componentDetails_nested {root outer inner : Tree α} {above below : List Nat}
    {a b : Candidate α} (around : DeclaredAt root above outer a)
    (inside : DeclaredAt root (above ++ below) inner b) :
    (∀ aspect name, name ∈ (Aspect.of (componentDetails outer a.function) aspect).toList ↔
      ∃ address s, outer.subtree? address = some s ∧ Shows s name aspect) ∧
    (∀ aspect, (Aspect.of (componentDetails inner b.function) aspect).toList ⊆
      (Aspect.of (componentDetails outer a.function) aspect).toList) ∧
    (firstFault? (outer.nodes.flatMap detailTexts) = none →
      firstFault? (inner.nodes.flatMap detailTexts) = none) := by
  have beneath : outer.subtree? below = some inner :=
    (Tree.subtree?_append around.found).symm.trans inside.found
  refine ⟨fun _ _ => mem_of_componentDetails, ?_, ?_⟩
  · intro aspect name gathered
    obtain ⟨address, s, found, shown⟩ := mem_of_componentDetails.mp gathered
    exact mem_of_componentDetails.mpr
      ⟨below ++ address, s, (Tree.subtree?_append beneath).trans found, shown⟩
  · exact firstFault?_detailTexts_of_subset (Tree.nodes_subset beneath)

/-- A node that covers a text. -/
def written (field : Option String) (kind text : String) (children : List (Tree Unit)) :
    Tree Unit :=
  .node { label := (), kind, text := some text, startRow := 0, endRow := 0, named := true, field }
    children

/-- The pattern `[, setOpen]` on the left of a state declarator. -/
def setterOnly : Tree Unit :=
  written (some "name") "array_pattern" "[, setOpen]"
    [written none "[" "[" [], written none "," "," [],
      written none "identifier" "setOpen" [], written none "]" "]" []]

/-- A function in a variable, with a state of its own of which only the setter is bound. -/
def rowDeclaration : Tree Unit :=
  written none "variable_declarator" "Row = () => …"
    [written (some "name") "identifier" "Row" [],
      written (some "value") "arrow_function" "() => …"
        [written none "variable_declarator" "[, setOpen] = useState()"
          [setterOnly,
            written (some "value") "call_expression" "useState()"
              [written (some "function") "identifier" "useState" []]]]]

/-- A function around it. -/
def pageDeclaration : Tree Unit :=
  written none "function_declaration" "function Page …"
    [written (some "name") "identifier" "Page" [], rowDeclaration]

/-- The setter that the inner function binds is gathered for the function around it too. -/
theorem componentDetails_nested_page :
    ∃ row page : Candidate Unit,
      DeclaredAt pageDeclaration [] pageDeclaration page ∧
      DeclaredAt pageDeclaration ([] ++ [1]) rowDeclaration row ∧
      (∀ aspect, (Aspect.of (componentDetails rowDeclaration row.function) aspect).toList ⊆
        (Aspect.of (componentDetails pageDeclaration page.function) aspect).toList) ∧
      "setOpen" ∈ (Aspect.of (componentDetails pageDeclaration page.function)
        .stateSetters).toList := by
  have around : DeclaredAt pageDeclaration [] pageDeclaration ⟨"Page", pageDeclaration⟩ :=
    ⟨rfl, rfl⟩
  have inside : ∃ row, DeclaredAt pageDeclaration ([] ++ [1]) rowDeclaration row :=
    ⟨_, rfl, rfl⟩
  obtain ⟨row, inside⟩ := inside
  have nested := componentDetails_nested around inside
  refine ⟨row, _, around, inside, nested.2.1, ?_⟩
  have bound : StandsAt setterOnly 1 (written none "identifier" "setOpen" []) := ⟨_, rfl, rfl⟩
  exact (nested.1 .stateSetters "setOpen").mpr
    ⟨[1, 1, 0], _, rfl, rfl, setterOnly, _, ⟨rfl, rfl, _, _, rfl, rfl, rfl, rfl, rfl⟩, bound,
      rfl, rfl, by decide⟩

end SourceAtlas.Syntax
