/-
# Walks through a syntax tree

A node of a tree has an address: the numbers of the children on the way down to it. Pre-order is
the lexicographic order of addresses, in which a node comes before everything beneath it.

A walk with a stack visits each node once, in pre-order, and it visits exactly those nodes that can
be reached without passing through a node that it may not enter. The node where the walk begins is
always entered, and a node that may not be entered is still visited itself.
-/

import Mathlib.Data.List.Lex
import SourceAtlas.Syntax.Tree

namespace SourceAtlas.Syntax.Tree

variable {α : Type}

/-- The tree at an address. -/
def subtree? (t : Tree α) : List Nat → Option (Tree α)
  | [] => some t
  | i :: rest => t.children[i]?.bind fun c => c.subtree? rest

@[simp]
theorem subtree?_nil (t : Tree α) : t.subtree? [] = some t := rfl

theorem subtree?_cons_eq_some_iff {t s : Tree α} {i : Nat} {rest : List Nat} :
    t.subtree? (i :: rest) = some s ↔ ∃ c, t.children[i]? = some c ∧ c.subtree? rest = some s :=
  Option.bind_eq_some_iff

theorem subtree?_append {t s : Tree α} {above below : List Nat}
    (found : t.subtree? above = some s) :
    t.subtree? (above ++ below) = s.subtree? below := by
  induction above generalizing t with
  | nil =>
      cases found
      rfl
  | cons i rest ih =>
      obtain ⟨c, child, found⟩ := subtree?_cons_eq_some_iff.mp found
      rw [List.cons_append, subtree?, child]
      exact ih found

/-- Every node on the way to an address may be entered, the first one included. -/
def IsOpen (descend : Tree α → Bool) (t : Tree α) (address : List Nat) : Prop :=
  ∀ above below, address = above ++ below → below ≠ [] →
    ∀ s, t.subtree? above = some s → descend s = true

/-- A node that a walk from `t` visits: whatever stands strictly between may be entered. -/
structure Visits (descend : Tree α → Bool) (t : Tree α) (address : List Nat) (s : Tree α) :
    Prop where
  found : t.subtree? address = some s
  between : ∀ above below, address = above ++ below → above ≠ [] → below ≠ [] →
    ∀ u, t.subtree? above = some u → descend u = true

theorem isOpen_nil (descend : Tree α → Bool) (t : Tree α) : IsOpen descend t [] := by
  intro above below split nonempty
  exact absurd (List.append_eq_nil_iff.mp split.symm).2 nonempty

theorem isOpen_cons_iff {descend : Tree α → Bool} {t c : Tree α} {i : Nat} {rest : List Nat}
    (child : t.children[i]? = some c) :
    IsOpen descend t (i :: rest) ↔ descend t = true ∧ IsOpen descend c rest := by
  constructor
  · intro isOpen
    refine ⟨isOpen [] (i :: rest) rfl (List.cons_ne_nil _ _) t rfl, ?_⟩
    intro above below split nonempty s found
    refine isOpen (i :: above) below (by rw [split, List.cons_append]) nonempty s ?_
    exact subtree?_cons_eq_some_iff.mpr ⟨c, child, found⟩
  · rintro ⟨enter, isOpen⟩ above below split nonempty s found
    cases above with
    | nil =>
        cases found
        exact enter
    | cons j above =>
        rw [List.cons_append, List.cons.injEq] at split
        obtain ⟨rfl, split⟩ := split
        obtain ⟨c', child', found⟩ := subtree?_cons_eq_some_iff.mp found
        cases child.symm.trans child'
        exact isOpen above below split nonempty s found

theorem visits_nil_iff {descend : Tree α → Bool} {t s : Tree α} :
    Visits descend t [] s ↔ s = t := by
  constructor
  · intro visits
    exact (Option.some.inj visits.found).symm
  · rintro rfl
    refine ⟨rfl, ?_⟩
    intro above below split nonempty
    exact absurd (List.append_eq_nil_iff.mp split.symm).1 nonempty

theorem visits_cons_iff {descend : Tree α → Bool} {t s : Tree α} {i : Nat} {rest : List Nat} :
    Visits descend t (i :: rest) s ↔
      ∃ c, t.children[i]? = some c ∧ c.subtree? rest = some s ∧ IsOpen descend c rest := by
  constructor
  · rintro ⟨found, between⟩
    obtain ⟨c, child, found⟩ := subtree?_cons_eq_some_iff.mp found
    refine ⟨c, child, found, ?_⟩
    intro above below split nonempty u stands
    refine between (i :: above) below (by rw [split, List.cons_append]) (List.cons_ne_nil _ _)
      nonempty u ?_
    exact subtree?_cons_eq_some_iff.mpr ⟨c, child, stands⟩
  · rintro ⟨c, child, found, isOpen⟩
    refine ⟨subtree?_cons_eq_some_iff.mpr ⟨c, child, found⟩, ?_⟩
    intro above below split above_nonempty below_nonempty u stands
    cases above with
    | nil => exact absurd rfl above_nonempty
    | cons j above =>
        rw [List.cons_append, List.cons.injEq] at split
        obtain ⟨rfl, split⟩ := split
        obtain ⟨c', child', stands⟩ := subtree?_cons_eq_some_iff.mp stands
        cases child.symm.trans child'
        exact isOpen above below split below_nonempty u stands

/-- Without barriers a walk visits every node. -/
theorem visits_true_iff {t s : Tree α} {address : List Nat} :
    Visits (fun _ => true) t address s ↔ t.subtree? address = some s :=
  ⟨Visits.found, fun found => ⟨found, fun _ _ _ _ _ _ _ => rfl⟩⟩

mutual

/-- The nodes at and beneath a tree with their addresses, in pre-order; a node that may not be
entered is listed without what is beneath it. -/
def places (descend : Tree α → Bool) : Tree α → List (List Nat × Tree α)
  | .node info children =>
    ([], .node info children) ::
      if descend (.node info children) then placesAmong descend 0 children else []

/-- The nodes at and beneath siblings; the first of them has the number `i`. -/
def placesAmong (descend : Tree α → Bool) (i : Nat) : List (Tree α) → List (List Nat × Tree α)
  | [] => []
  | t :: rest =>
    ((places descend t).map fun place => (i :: place.1, place.2)) ++
      placesAmong descend (i + 1) rest

end

theorem places_eq (descend : Tree α → Bool) (t : Tree α) :
    places descend t =
      ([], t) :: if descend t then placesAmong descend 0 t.children else [] := by
  cases t
  rfl

theorem mem_placesAmong_iff {descend : Tree α → Bool} {first : Nat} {trees : List (Tree α)}
    {place : List Nat × Tree α} :
    place ∈ placesAmong descend first trees ↔
      ∃ i c rest, trees[i]? = some c ∧ place.1 = (first + i) :: rest ∧
        (rest, place.2) ∈ places descend c := by
  induction trees generalizing first with
  | nil => simp [placesAmong]
  | cons t rest ih =>
      rw [placesAmong, List.mem_append, List.mem_map, ih]
      constructor
      · rintro (⟨inner, listed, rfl⟩ | ⟨i, c, address, child, here, listed⟩)
        · exact ⟨0, t, inner.1, rfl, rfl, listed⟩
        · exact ⟨i + 1, c, address, child, by rw [here, Nat.add_right_comm, Nat.add_assoc], listed⟩
      · rintro ⟨i, c, address, child, here, listed⟩
        cases i with
        | zero =>
            cases child
            exact .inl ⟨_, listed, Prod.ext here.symm rfl⟩
        | succ i =>
            exact .inr ⟨i, c, address, child, by rw [here, Nat.add_right_comm, Nat.add_assoc],
              listed⟩

/-- The listed places are those to which the way is open. -/
theorem mem_places_iff {descend : Tree α → Bool} {t s : Tree α} {address : List Nat} :
    (address, s) ∈ places descend t ↔ t.subtree? address = some s ∧ IsOpen descend t address := by
  induction address generalizing t with
  | nil =>
      rw [places_eq, List.mem_cons]
      constructor
      · rintro (here | beneath)
        · cases here
          exact ⟨rfl, isOpen_nil descend s⟩
        · split at beneath
          · obtain ⟨i, c, rest, -, impossible, -⟩ := mem_placesAmong_iff.mp beneath
            cases impossible
          · cases beneath
      · rintro ⟨found, -⟩
        cases found
        exact .inl rfl
  | cons i rest ih =>
      rw [places_eq, List.mem_cons]
      constructor
      · rintro (impossible | beneath)
        · cases impossible
        · split at beneath
          next enter =>
            obtain ⟨j, c, address, child, here, listed⟩ := mem_placesAmong_iff.mp beneath
            rw [Nat.zero_add, List.cons.injEq] at here
            obtain ⟨rfl, rfl⟩ := here
            obtain ⟨found, isOpen⟩ := ih.mp listed
            exact ⟨subtree?_cons_eq_some_iff.mpr ⟨c, child, found⟩,
              (isOpen_cons_iff child).mpr ⟨enter, isOpen⟩⟩
          next => cases beneath
      · rintro ⟨found, isOpen⟩
        obtain ⟨c, child, found⟩ := subtree?_cons_eq_some_iff.mp found
        obtain ⟨enter, isOpen⟩ := (isOpen_cons_iff child).mp isOpen
        rw [if_pos enter, mem_placesAmong_iff]
        exact .inr ⟨i, c, rest, child, by rw [Nat.zero_add], ih.mpr ⟨found, isOpen⟩⟩

mutual

theorem pairwise_places (descend : Tree α → Bool) :
    (t : Tree α) → (places descend t).Pairwise (·.1 < ·.1)
  | .node info children => by
      rw [places, List.pairwise_cons]
      constructor
      · intro place listed
        split at listed
        · obtain ⟨i, c, rest, -, here, -⟩ := mem_placesAmong_iff.mp listed
          rw [here]
          exact List.nil_lt_cons _ _
        · cases listed
      · split
        · exact pairwise_placesAmong descend 0 children
        · exact .nil

theorem pairwise_placesAmong (descend : Tree α → Bool) (i : Nat) :
    (trees : List (Tree α)) → (placesAmong descend i trees).Pairwise (·.1 < ·.1)
  | [] => .nil
  | t :: rest => by
      rw [placesAmong, List.pairwise_append]
      refine ⟨?_, pairwise_placesAmong descend (i + 1) rest, ?_⟩
      · rw [List.pairwise_map]
        refine (pairwise_places descend t).imp fun below => ?_
        exact List.cons_lt_cons_iff.mpr (.inr ⟨rfl, below⟩)
      · intro place listed later among
        obtain ⟨inner, -, rfl⟩ := List.mem_map.mp listed
        obtain ⟨j, c, address, -, here, -⟩ := mem_placesAmong_iff.mp among
        rw [here]
        exact List.cons_lt_cons_iff.mpr (.inl (by omega))

end

/-! ## The walk with a stack -/

theorem map_snd_placesAmong (descend : Tree α → Bool) (i : Nat) (trees : List (Tree α)) :
    (placesAmong descend i trees).map Prod.snd =
      trees.flatMap fun t => (places descend t).map Prod.snd := by
  induction trees generalizing i with
  | nil => rfl
  | cons t rest ih => simp [placesAmong, ih]

theorem map_snd_places (descend : Tree α → Bool) (t : Tree α) :
    (places descend t).map Prod.snd =
      t :: if descend t then t.children.flatMap fun c => (places descend c).map Prod.snd
        else [] := by
  rw [places_eq, List.map_cons]
  split
  · rw [map_snd_placesAmong]
  · rfl

/-- What is on the stack is visited tree by tree, each in pre-order. -/
theorem visit_eq (descend : Tree α → Bool) (stack done : List (Tree α)) :
    visit descend stack done =
      done.reverse ++ stack.flatMap fun t => (places descend t).map Prod.snd := by
  induction stack, done using visit.induct descend with
  | case1 done => simp [visit]
  | case2 done t rest enter ih =>
      rw [visit, if_pos enter, ih, List.flatMap_cons, map_snd_places, if_pos enter]
      simp
  | case3 done t rest barred ih =>
      rw [visit, if_neg barred, ih, List.flatMap_cons, map_snd_places, if_neg barred]
      simp

/-- The places that a walk from a tree visits. The tree itself is always entered. -/
def preorderPlaces (descend : Tree α → Bool) (t : Tree α) : List (List Nat × Tree α) :=
  ([], t) :: placesAmong descend 0 t.children

theorem preorder_eq_map_snd (descend : Tree α → Bool) (t : Tree α) :
    t.preorder descend = (preorderPlaces descend t).map Prod.snd := by
  rw [preorder, visit_eq, preorderPlaces, List.map_cons, map_snd_placesAmong]
  rfl

theorem mem_preorderPlaces_iff {descend : Tree α → Bool} {t s : Tree α} {address : List Nat} :
    (address, s) ∈ preorderPlaces descend t ↔ Visits descend t address s := by
  rw [preorderPlaces, List.mem_cons, mem_placesAmong_iff]
  cases address with
  | nil => simp [visits_nil_iff]
  | cons i rest =>
      rw [visits_cons_iff]
      constructor
      · rintro (impossible | ⟨j, c, address, child, here, listed⟩)
        · cases impossible
        · rw [Nat.zero_add, List.cons.injEq] at here
          obtain ⟨rfl, rfl⟩ := here
          exact ⟨c, child, mem_places_iff.mp listed⟩
      · rintro ⟨c, child, reached⟩
        exact .inr ⟨i, c, rest, child, by rw [Nat.zero_add], mem_places_iff.mpr reached⟩

/-- A walk visits no place twice, and it visits them in pre-order. -/
theorem pairwise_preorderPlaces (descend : Tree α → Bool) (t : Tree α) :
    (preorderPlaces descend t).Pairwise (·.1 < ·.1) := by
  rw [preorderPlaces, List.pairwise_cons]
  refine ⟨?_, pairwise_placesAmong descend 0 t.children⟩
  intro place listed
  obtain ⟨i, c, rest, -, here, -⟩ := mem_placesAmong_iff.mp listed
  rw [here]
  exact List.nil_lt_cons _ _

/-- The nodes of a tree are what stands at its addresses. -/
theorem mem_nodes_iff {t s : Tree α} :
    s ∈ t.nodes ↔ ∃ address, t.subtree? address = some s := by
  rw [nodes, preorder_eq_map_snd, List.mem_map]
  constructor
  · rintro ⟨place, visited, rfl⟩
    exact ⟨place.1, (mem_preorderPlaces_iff.mp visited).found⟩
  · rintro ⟨address, found⟩
    exact ⟨(address, s), mem_preorderPlaces_iff.mpr (visits_true_iff.mpr found), rfl⟩

theorem nodes_subset {t s : Tree α} {address : List Nat} (found : t.subtree? address = some s) :
    s.nodes ⊆ t.nodes := by
  intro node listed
  obtain ⟨beneath, stands⟩ := mem_nodes_iff.mp listed
  exact mem_nodes_iff.mpr ⟨address ++ beneath, (subtree?_append found).trans stands⟩

/-- A search fails only if no visited node is of a wanted kind, and otherwise it finds the first
one. -/
theorem findFirst?_cases (wanted : List String) (descend : Tree α → Bool) (t : Tree α) :
    (t.findFirst? wanted descend = none ∧
      ∀ address s, Visits descend t address s → s.kind ∉ wanted) ∨
    ∃ address s, t.findFirst? wanted descend = some s ∧ Visits descend t address s ∧
      s.kind ∈ wanted ∧
      ∀ other u, Visits descend t other u → u.kind ∈ wanted → address ≤ other := by
  rw [findFirst?, preorder_eq_map_snd, List.find?_map]
  cases result :
      (preorderPlaces descend t).find? ((fun n => wanted.contains n.kind) ∘ Prod.snd) with
  | none =>
      refine .inl ⟨rfl, ?_⟩
      intro address s visits kind
      have unwanted := List.find?_eq_none.mp result _ (mem_preorderPlaces_iff.mpr visits)
      exact unwanted (List.contains_iff_mem.mpr kind)
  | some place =>
      obtain ⟨address, s⟩ := place
      obtain ⟨kind, before, after, split, unwanted⟩ := List.find?_eq_some_iff_append.mp result
      have visits : Visits descend t address s :=
        mem_preorderPlaces_iff.mp (List.mem_of_find?_eq_some result)
      refine .inr ⟨address, s, rfl, visits, List.contains_iff_mem.mp kind, ?_⟩
      intro other u other_visits other_kind
      have listed := mem_preorderPlaces_iff.mpr other_visits
      have ordered := pairwise_preorderPlaces descend t
      rw [split, List.pairwise_append, List.pairwise_cons] at ordered
      rw [split, List.mem_append, List.mem_cons] at listed
      rcases listed with earlier | here | later
      · have not_wanted := unwanted _ earlier
        simp [other_kind] at not_wanted
      · cases here
        exact le_refl _
      · exact le_of_lt (ordered.2.1.1 _ later)

/-- A tree contains a kind if a node at or beneath it is of that kind. -/
theorem containsKind_iff {wanted : List String} {t : Tree α} :
    t.containsKind wanted = true ↔
      ∃ address s, t.subtree? address = some s ∧ s.kind ∈ wanted := by
  rw [containsKind]
  rcases findFirst?_cases wanted (fun _ => true) t with
    ⟨nothing, unwanted⟩ | ⟨address, s, first, visits, kind, -⟩
  · rw [nothing]
    constructor
    · intro impossible
      cases impossible
    · rintro ⟨address, s, found, kind⟩
      exact absurd kind (unwanted address s (visits_true_iff.mpr found))
  · rw [first]
    exact ⟨fun _ => ⟨address, s, visits.found, kind⟩, fun _ => rfl⟩

end SourceAtlas.Syntax.Tree
