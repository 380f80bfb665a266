/-
# Which declarations are components

What a declaration renders is told here by the shape of the tree alone. A function or class renders
markup if the first return statement of its own holds some, where a statement is its own if no
other function scope stands strictly between the body and the statement. A class counts the return
statements of its methods as its own. An arrow function whose body is an expression renders what
that expression holds.

The declarations of a file are listed once for each named declaration in its tree, nested ones
included, in pre-order, and the listed node is a component exactly if the declaration renders
markup. The tree may be of any shape, also of one that no grammar gives.
-/

import SourceAtlas.Proofs.Syntax.Preorder
import SourceAtlas.Syntax.Declaration

namespace SourceAtlas.Syntax

open SourceAtlas.Graph

variable {α : Type}

/-- Whether some node at or beneath a tree is markup. -/
def HoldsMarkup (t : Tree α) : Prop :=
  ∃ address s, t.subtree? address = some s ∧ s.kind ∈ markupKinds

/-- Whether a node closes off what is beneath it from a function or class around it. -/
def ClosesOff (function t : Tree α) : Prop :=
  t.kind ∈ functionKinds ∧ ¬ (function.kind ∈ classKinds ∧ t.kind = "method_definition")

/-- A return statement at or beneath the body of a function or class that belongs to it. -/
structure OwnReturn (function body : Tree α) (address : List Nat) (statement : Tree α) :
    Prop where
  found : body.subtree? address = some statement
  kind : statement.kind = "return_statement"
  between : ∀ above below, address = above ++ below → above ≠ [] → below ≠ [] →
    ∀ s, body.subtree? above = some s → ¬ ClosesOff function s

/-- Whether a function or class renders markup: an arrow function without a block does if its body
holds markup, and anything else if the first of its own return statements does. First means the
least address. -/
def RendersMarkup (function : Tree α) : Prop :=
  ∃ body, function.child? "body" = some body ∧
    ((function.kind = "arrow_function" ∧ body.kind ≠ "statement_block" ∧ HoldsMarkup body) ∨
      ∃ address statement, OwnReturn function body address statement ∧
        (∀ other s, OwnReturn function body other s → address ≤ other) ∧ HoldsMarkup statement)

/-- Where the search for the return statements of a function or class goes on. -/
def searches (function : Tree α) : Tree α → Bool :=
  if classKinds.contains function.kind then withinClass else outsideFunctions

theorem searches_eq_true_iff {function t : Tree α} :
    searches function t = true ↔ ¬ ClosesOff function t := by
  by_cases isClass : function.kind ∈ classKinds
  · have atMethods : searches function t = withinClass t := by simp [searches, isClass]
    rw [atMethods, ClosesOff]
    by_cases method : t.kind = "method_definition" <;>
      simp [withinClass, outsideFunctions, isClass, method]
  · simp [searches, outsideFunctions, ClosesOff, isClass]

theorem ownReturn_iff_visits {function body statement : Tree α} {address : List Nat} :
    OwnReturn function body address statement ↔
      Tree.Visits (searches function) body address statement ∧
        statement.kind ∈ ["return_statement"] := by
  rw [List.mem_singleton]
  constructor
  · rintro ⟨found, kind, between⟩
    refine ⟨⟨found, ?_⟩, kind⟩
    intro above below split above_nonempty below_nonempty s stands
    exact searches_eq_true_iff.mpr
      (between above below split above_nonempty below_nonempty s stands)
  · rintro ⟨⟨found, between⟩, kind⟩
    refine ⟨found, kind, ?_⟩
    intro above below split above_nonempty below_nonempty s stands
    exact searches_eq_true_iff.mp (between above below split above_nonempty below_nonempty s stands)

/-- What decides about a function or class with a body. -/
theorem rendered?_eq {function body : Tree α} (has : function.child? "body" = some body) :
    rendered? function =
      if function.kind = "arrow_function" ∧ body.kind ≠ "statement_block" then some body
      else body.findFirst? ["return_statement"] (searches function) := by
  rw [rendered?, has]
  by_cases isClass : function.kind ∈ classKinds
  · have noArrow : function.kind ≠ "arrow_function" := by
      intro arrow
      rw [arrow] at isClass
      revert isClass
      decide
    simp [searches, isClass, noArrow]
  · simp [searches, isClass]

theorem isComponent_of_rendered? {function t : Tree α} (renders : rendered? function = some t) :
    isComponent function = true ↔ HoldsMarkup t := by
  rw [isComponent, renders]
  exact Tree.containsKind_iff

/-- What a statement beneath a tree holds, the tree holds. -/
theorem HoldsMarkup.of_subtree {t s : Tree α} {address : List Nat}
    (found : t.subtree? address = some s) (holds : HoldsMarkup s) : HoldsMarkup t := by
  obtain ⟨below, markup, stands, kind⟩ := holds
  exact ⟨address ++ below, markup, (Tree.subtree?_append found).trans stands, kind⟩

/-- **A component is what renders markup.** -/
theorem isComponent_iff {function : Tree α} :
    isComponent function = true ↔ RendersMarkup function := by
  cases has : function.child? "body" with
  | none => simp [isComponent, rendered?, has, RendersMarkup]
  | some body =>
      have decides := rendered?_eq has
      simp only [RendersMarkup, has, Option.some.injEq, exists_eq_left']
      by_cases expression : function.kind = "arrow_function" ∧ body.kind ≠ "statement_block"
      · rw [if_pos expression] at decides
        rw [isComponent_of_rendered? decides]
        constructor
        · intro holds
          exact .inl ⟨expression.1, expression.2, holds⟩
        · rintro (⟨-, -, holds⟩ | ⟨address, statement, own, -, holds⟩)
          · exact holds
          · exact holds.of_subtree own.found
      · rw [if_neg expression] at decides
        have no_expression : ¬ (function.kind = "arrow_function" ∧ body.kind ≠ "statement_block" ∧
            HoldsMarkup body) := fun h => expression ⟨h.1, h.2.1⟩
        rw [or_iff_right no_expression]
        rcases Tree.findFirst?_cases ["return_statement"] (searches function) body with
          ⟨nothing, unwanted⟩ | ⟨address, statement, first, visits, kind, least⟩
        · rw [nothing] at decides
          simp only [isComponent, decides, Bool.false_eq_true, false_iff]
          rintro ⟨address, statement, own, -⟩
          obtain ⟨visits, kind⟩ := ownReturn_iff_visits.mp own
          exact unwanted address statement visits kind
        · rw [first] at decides
          rw [isComponent_of_rendered? decides]
          have own : OwnReturn function body address statement :=
            ownReturn_iff_visits.mpr ⟨visits, kind⟩
          constructor
          · intro holds
            refine ⟨address, statement, own, ?_, holds⟩
            intro other s other_own
            obtain ⟨other_visits, other_kind⟩ := ownReturn_iff_visits.mp other_own
            exact least other s other_visits other_kind
          · rintro ⟨other, s, other_own, other_least, holds⟩
            obtain ⟨other_visits, other_kind⟩ := ownReturn_iff_visits.mp other_own
            have same : address = other :=
              le_antisymm (least other s other_visits other_kind)
                (other_least address statement own)
            subst same
            cases own.found.symm.trans other_own.found
            exact holds

/-- Whether a node stands for the named declaration at an address of a tree. -/
def Describes (path : String) (root : Tree α) (address : List Nat) (entry : Node) : Prop :=
  ∃ t candidate, root.subtree? address = some t ∧ candidate? t = some candidate ∧
    ((RendersMarkup candidate.function ∧
        entry = .component
          { name := candidate.name, path, startLine := t.info.startRow + 1
            endLine := t.info.endRow + 1, details := componentDetails t candidate.function }) ∨
      (¬ RendersMarkup candidate.function ∧
        entry = .utility
          { name := candidate.name, path, startLine := t.info.startRow + 1
            endLine := t.info.endRow + 1 }))

theorem isSome_classify? (path : String) (t : Tree α) :
    (classify? path t).isSome = (candidate? t).isSome := by
  rw [classify?, Option.isSome_map]

theorem describes_of_classify? {path : String} {root t : Tree α} {address : List Nat} {entry : Node}
    (found : root.subtree? address = some t) (classified : classify? path t = some entry) :
    Describes path root address entry := by
  obtain ⟨candidate, named, rfl⟩ := Option.map_eq_some_iff.mp classified
  refine ⟨t, candidate, found, named, ?_⟩
  by_cases renders : isComponent candidate.function = true
  · exact .inl ⟨isComponent_iff.mp renders, by rw [if_pos renders]⟩
  · exact .inr ⟨fun h => renders (isComponent_iff.mpr h), by rw [if_neg renders]⟩

/-- What is kept of a list, beside the items that it comes from. -/
theorem forall₂_map_filter_filterMap {β γ δ : Type} {f : β → Option γ} {key : β → δ}
    {R : δ → γ → Prop} {items : List β} (related : ∀ b ∈ items, ∀ c, f b = some c → R (key b) c) :
    List.Forall₂ R ((items.filter fun b => (f b).isSome).map key) (items.filterMap f) := by
  induction items with
  | nil => exact .nil
  | cons b rest ih =>
      have later := ih fun c listed => related c (List.mem_cons_of_mem _ listed)
      cases kept : f b with
      | none =>
          rw [List.filterMap_cons_none kept, List.filter_cons_of_neg (by simp [kept])]
          exact later
      | some c =>
          rw [List.filterMap_cons_some kept, List.filter_cons_of_pos (by simp [kept]),
            List.map_cons]
          exact .cons (related b List.mem_cons_self c kept) later

/-- **Every named declaration is listed once and classified by what it renders.** The listed nodes
stand for the addresses of the named declarations of the tree, all of them, in pre-order. -/
theorem declarations_describe (path : String) (root : Tree α) :
    ∃ addresses : List (List Nat), addresses.Pairwise (· < ·) ∧
      (∀ address, address ∈ addresses ↔
        ∃ t, root.subtree? address = some t ∧ (candidate? t).isSome = true) ∧
      List.Forall₂ (Describes path root) addresses (declarations path root) := by
  have listed : declarations path root =
      (Tree.preorderPlaces (fun _ => true) root).filterMap fun place => classify? path place.2 := by
    rw [declarations, Tree.nodes, Tree.preorder_eq_map_snd, List.filterMap_map]
    rfl
  refine ⟨((Tree.preorderPlaces (fun _ => true) root).filter fun place =>
    (classify? path place.2).isSome).map Prod.fst, ?_, ?_, ?_⟩
  · rw [List.pairwise_map]
    exact (Tree.pairwise_preorderPlaces _ root).filter _
  · intro address
    simp only [List.mem_map, List.mem_filter, isSome_classify?]
    constructor
    · rintro ⟨⟨here, t⟩, ⟨visited, named⟩, rfl⟩
      exact ⟨t, (Tree.mem_preorderPlaces_iff.mp visited).found, named⟩
    · rintro ⟨t, found, named⟩
      exact ⟨(address, t),
        ⟨Tree.mem_preorderPlaces_iff.mpr (Tree.visits_true_iff.mpr found), named⟩, rfl⟩
  · rw [listed]
    refine forall₂_map_filter_filterMap ?_
    rintro ⟨address, t⟩ visited entry classified
    exact describes_of_classify? (Tree.mem_preorderPlaces_iff.mp visited).found classified

end SourceAtlas.Syntax
