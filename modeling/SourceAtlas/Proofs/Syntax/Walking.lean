/-
# Walks turn by turn

The nodes of a tree in pre-order can be told by recursion: the tree itself, and then, if it may be
entered, the nodes of its children from left to right. A walk keeps a stack instead. It starts with
the tree visited and its children on the stack. In each turn it visits the tree on top and puts the
children of that tree in its place, if it may be entered.

What has been visited, followed by the nodes of what is on the stack, stays the same in every turn.
So a walk visits the nodes in the order of the recursion, one in each turn, and its stack is empty
after the last of them. A search finds the first of them that is wanted.
-/

import Mathlib.Logic.Function.Iterate
import SourceAtlas.Proofs.Syntax.Preorder

namespace SourceAtlas.Syntax.Tree

variable {α : Type}

mutual

/-- The nodes of a tree in pre-order. Without a condition every node may be entered; with one, only
the nodes that meet it and the one where the walk starts. -/
def sequence (descend : Option (Tree α → Bool)) (start : Bool) : Tree α → List (Tree α)
  | .node info children =>
    .node info children ::
      if start || descend.all (· (.node info children)) then sequences descend children else []

def sequences (descend : Option (Tree α → Bool)) : List (Tree α) → List (Tree α)
  | [] => []
  | t :: rest => sequence descend false t ++ sequences descend rest

end

section Recursion

variable (descend : Option (Tree α → Bool))

theorem sequence_eq (start : Bool) (t : Tree α) :
    t.sequence descend start =
      t :: if start || descend.all (· t) then sequences descend t.children else [] := by
  cases t
  rfl

theorem all_eq_getD (t : Tree α) : descend.all (· t) = descend.getD (fun _ => true) t := by
  cases descend <;> rfl

mutual

theorem map_snd_places_eq_sequence : (t : Tree α) →
    (places (descend.getD fun _ => true) t).map Prod.snd = t.sequence descend false
  | .node info children => by
      rw [map_snd_places, sequence_eq, all_eq_getD, Bool.false_or]
      exact congrArg (fun beneath => _ :: ite _ beneath []) (flatMap_places_eq_sequences children)

theorem flatMap_places_eq_sequences : (trees : List (Tree α)) →
    (trees.flatMap fun t => (places (descend.getD fun _ => true) t).map Prod.snd) =
      sequences descend trees
  | [] => rfl
  | t :: rest => by
      rw [List.flatMap_cons, map_snd_places_eq_sequence t, flatMap_places_eq_sequences rest,
        sequences]

end

/-- The walk with a stack visits the nodes in the order of the recursion. -/
theorem preorder_eq_sequence (t : Tree α) :
    t.preorder (descend.getD fun _ => true) = t.sequence descend true := by
  rw [preorder_eq_map_snd, preorderPlaces, List.map_cons, map_snd_placesAmong,
    flatMap_places_eq_sequences, sequence_eq, Bool.true_or, if_pos rfl]

end Recursion

/-- A walk under way. -/
structure Walk (α : Type) where
  /-- What is still to be visited, from the top. -/
  stack : List (Tree α)
  /-- What has been visited, the last first. -/
  visited : List (Tree α)

namespace Walk

/-- A walk that has visited the tree where it starts. -/
def start (t : Tree α) : Walk α := ⟨t.children, [t]⟩

/-- One turn of a walk: the tree on top is visited, and its children take its place if the walk
descends into it. -/
def turn (descend : Tree α → Bool) (w : Walk α) : Walk α :=
  match w.stack with
  | [] => w
  | t :: rest =>
    { stack := if descend t then t.children ++ rest else rest
      visited := t :: w.visited }

/-- A walk from a tree after a number of turns. -/
def after (descend : Tree α → Bool) (t : Tree α) (k : Nat) : Walk α :=
  (turn descend)^[k] (start t)

/-- What a walk has visited when it ends. -/
def outcome (descend : Tree α → Bool) (w : Walk α) : List (Tree α) :=
  visit descend w.stack w.visited

section Run

variable (descend : Tree α → Bool)

/-- The walk goes on as after a turn. -/
theorem outcome_turn (w : Walk α) : (w.turn descend).outcome descend = w.outcome descend := by
  obtain ⟨stack, visited⟩ := w
  cases stack with
  | nil => rfl
  | cons t rest =>
      rw [turn, outcome, outcome, visit]
      by_cases enters : descend t = true <;> simp [enters]

theorem after_succ (t : Tree α) (k : Nat) :
    after descend t (k + 1) = (after descend t k).turn descend :=
  Function.iterate_succ_apply' ..

theorem outcome_after (t : Tree α) (k : Nat) :
    (after descend t k).outcome descend = t.preorder descend := by
  induction k with
  | zero => rfl
  | succ k ih => rw [after_succ, outcome_turn, ih]

theorem visited_eq_take (w : Walk α) :
    w.visited.reverse = (w.outcome descend).take w.visited.length := by
  rw [outcome, visit_eq, List.take_left' w.visited.length_reverse]

theorem length_outcome_cons (t : Tree α) (rest visited : List (Tree α)) :
    visited.length < (outcome descend ⟨t :: rest, visited⟩).length := by
  rw [outcome, visit_eq, List.flatMap_cons, map_snd_places]
  simp

/-- The stack is empty once everything is visited. -/
theorem stack_eq_nil_iff (w : Walk α) :
    w.stack = [] ↔ w.visited.length = (w.outcome descend).length := by
  obtain ⟨stack, visited⟩ := w
  cases stack with
  | nil => simp [outcome, visit]
  | cons t rest => simp [(length_outcome_cons descend t rest visited).ne]

theorem length_visited_turn (w : Walk α) :
    (w.turn descend).visited.length = min (w.visited.length + 1) (w.outcome descend).length := by
  obtain ⟨stack, visited⟩ := w
  cases stack with
  | nil => simp [turn, outcome, visit]
  | cons t rest => simp [turn, Nat.succ_le_of_lt (length_outcome_cons descend t rest visited)]

theorem length_visited_after (t : Tree α) (k : Nat) :
    (after descend t k).visited.length = min (k + 1) (t.preorder descend).length := by
  induction k with
  | zero => simp [after, start, preorder, visit_eq]
  | succ k ih =>
      rw [after_succ, length_visited_turn, outcome_after, ih]
      omega

/-- In each turn of a walk the next node is visited. -/
theorem visited_after (t : Tree α) (k : Nat) :
    (after descend t k).visited.reverse = (t.preorder descend).take (k + 1) := by
  rw [visited_eq_take descend, outcome_after, length_visited_after, ← List.take_take,
    List.take_length]

/-- The stack is empty once there are no more nodes to visit. -/
theorem stack_after_eq_nil_iff (t : Tree α) (k : Nat) :
    (after descend t k).stack = [] ↔ (t.preorder descend).length ≤ k + 1 := by
  rw [stack_eq_nil_iff descend, outcome_after, length_visited_after]
  omega

end Run

end Walk

/-- A walk with a stack visits the nodes in the order of the recursion, the next one in each turn,
and its stack is empty after the last. A search finds the first of these nodes with a wanted kind,
or nothing if there is none. -/
theorem walk_follows_recursion (descend : Option (Tree α → Bool)) (wanted : List String)
    (t : Tree α) :
    t.preorder (descend.getD fun _ => true) = t.sequence descend true ∧
      (∀ k, (Walk.after (descend.getD fun _ => true) t k).outcome (descend.getD fun _ => true) =
        t.sequence descend true) ∧
      (∀ k, (Walk.after (descend.getD fun _ => true) t k).visited.reverse =
        (t.sequence descend true).take (k + 1)) ∧
      (∀ k, (Walk.after (descend.getD fun _ => true) t k).stack = [] ↔
        (t.sequence descend true).length ≤ k + 1) ∧
      (∀ s, t.findFirst? wanted (descend.getD fun _ => true) = some s ↔
        s.kind ∈ wanted ∧ ∃ before after, t.sequence descend true = before ++ s :: after ∧
          ∀ u ∈ before, u.kind ∉ wanted) ∧
      (t.findFirst? wanted (descend.getD fun _ => true) = none ↔
        ∀ s ∈ t.sequence descend true, s.kind ∉ wanted) := by
  have order := preorder_eq_sequence descend t
  rw [findFirst?, ← order]
  refine ⟨rfl, Walk.outcome_after _ t, Walk.visited_after _ t, Walk.stack_after_eq_nil_iff _ t,
    fun s => ?_, ?_⟩
  · rw [List.find?_eq_some_iff_append]
    simp
  · rw [List.find?_eq_none]
    simp

end SourceAtlas.Syntax.Tree
