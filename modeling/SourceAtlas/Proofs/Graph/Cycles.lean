/-
# The listed cycles

A walk follows the edges of a graph from node to node. An elementary cycle is a closed walk that
passes no node twice, and it does not matter at which of its nodes it begins. The search for cycles
begins one at its least key, visits only greater keys, and turns away from those that cannot reach
the start any more. The main result says that nothing is missed and nothing is found twice: in every
graph that additions can make, the listed cycles are the elementary ones, each once. There are none
exactly if no node can be reached from itself.
-/

import Mathlib.Data.List.Cycle
import SourceAtlas.Graph.Cycles
import SourceAtlas.Proofs.Graph.Requests
import SourceAtlas.Proofs.Text.NameSet

namespace SourceAtlas.Graph

section Walks

variable {α : Type*} {r : α → α → Prop}

/-- The steps from the first to the last element through the middle ones all follow the relation. -/
def IsWalk (r : α → α → Prop) (first : α) (middle : List α) (last : α) : Prop :=
  List.IsChain r (first :: (middle ++ [last]))

@[simp]
theorem isWalk_nil {first last : α} : IsWalk r first [] last ↔ r first last := by
  simp [IsWalk]

@[simp]
theorem isWalk_cons {first next last : α} {rest : List α} :
    IsWalk r first (next :: rest) last ↔ r first next ∧ IsWalk r next rest last := by
  simp [IsWalk]

theorem isWalk_append {first stop last : α} {before after : List α} :
    IsWalk r first (before ++ stop :: after) last ↔
      IsWalk r first before stop ∧ IsWalk r stop after last := by
  induction before generalizing first with
  | nil => simp
  | cons next rest ih => simp [ih, and_assoc]

/-- A walk can be cut short until its middle has no repetition and avoids both ends. -/
theorem IsWalk.exists_simple {first last : α} {middle : List α}
    (walk : IsWalk r first middle last) :
    ∃ short, IsWalk r first short last ∧ short.Nodup ∧ first ∉ short ∧ last ∉ short := by
  classical
  induction middle generalizing first with
  | nil => exact ⟨[], walk, List.nodup_nil, List.not_mem_nil, List.not_mem_nil⟩
  | cons next rest ih =>
      obtain ⟨step, later⟩ := isWalk_cons.mp walk
      by_cases arrived : next = last
      · subst arrived
        exact ⟨[], isWalk_nil.mpr step, List.nodup_nil, List.not_mem_nil, List.not_mem_nil⟩
      · obtain ⟨short, path, distinct, fresh, open_end⟩ := ih later
        have whole : IsWalk r first (next :: short) last := isWalk_cons.mpr ⟨step, path⟩
        have distinct_all : (next :: short).Nodup := List.nodup_cons.mpr ⟨fresh, distinct⟩
        have avoids : last ∉ next :: short := by
          intro passed
          rcases List.mem_cons.mp passed with here | later
          · exact arrived here.symm
          · exact open_end later
        by_cases back : first ∈ next :: short
        -- The walk comes back to its first element, so it may begin there.
        · obtain ⟨before, after, split⟩ := List.append_of_mem back
          rw [split] at whole distinct_all avoids
          have tail : (first :: after).Nodup := distinct_all.of_append_right
          refine ⟨after, (isWalk_append.mp whole).2, (List.nodup_cons.mp tail).2,
            (List.nodup_cons.mp tail).1, fun passed => avoids ?_⟩
          exact List.mem_append_right _ (List.mem_cons_of_mem _ passed)
        · exact ⟨next :: short, whole, distinct_all, back, avoids⟩

theorem IsWalk.transGen {first last : α} {middle : List α} (walk : IsWalk r first middle last) :
    Relation.TransGen r first last := by
  induction middle generalizing first with
  | nil => exact .single (isWalk_nil.mp walk)
  | cons next rest ih =>
      obtain ⟨step, later⟩ := isWalk_cons.mp walk
      exact .head step (ih later)

theorem exists_isWalk_of_transGen {first last : α} (reached : Relation.TransGen r first last) :
    ∃ middle, IsWalk r first middle last := by
  induction reached with
  | single step => exact ⟨[], isWalk_nil.mpr step⟩
  | tail _ step ih =>
      obtain ⟨middle, walk⟩ := ih
      exact ⟨middle ++ [_], isWalk_append.mpr ⟨walk, isWalk_nil.mpr step⟩⟩

end Walks

/-! ## The search from one key -/

section Search

variable {links : String → List String} {start current : String}

theorem returnsTo_eq (available : List String) :
    returnsTo links start available current =
      (if (links current).contains start then [[]] else []) ++
        (available.filter (links current).contains).flatMap fun next =>
          (returnsTo links start (available.erase next) next).map (next :: ·) := by
  rw [returnsTo]
  congr 1
  conv_rhs => rw [← List.unattach_attach (l := available.filter (links current).contains)]
  exact List.flatMap_subtype fun _ _ => rfl

theorem nil_mem_returnsTo_iff {available : List String} :
    [] ∈ returnsTo links start available current ↔ start ∈ links current := by
  rw [returnsTo_eq]
  simp

theorem cons_mem_returnsTo_iff {available : List String} {next : String} {rest : List String} :
    next :: rest ∈ returnsTo links start available current ↔
      next ∈ links current ∧ next ∈ available ∧
        rest ∈ returnsTo links start (available.erase next) next := by
  rw [returnsTo_eq, List.mem_append, List.mem_flatMap]
  constructor
  · rintro (closing | ⟨step, passed, found⟩)
    · split at closing <;> simp at closing
    · obtain ⟨tail, returned, same⟩ := List.mem_map.mp found
      cases same
      obtain ⟨free, linked⟩ := List.mem_filter.mp passed
      exact ⟨List.contains_iff_mem.mp linked, free, returned⟩
  · rintro ⟨linked, free, returned⟩
    right
    exact ⟨next, List.mem_filter.mpr ⟨free, List.contains_iff_mem.mpr linked⟩,
      List.mem_map.mpr ⟨rest, returned, rfl⟩⟩

/-- The search finds the ways back that use available nodes and none of them twice. -/
theorem mem_returnsTo_iff {available path : List String} (distinct : available.Nodup) :
    path ∈ returnsTo links start available current ↔
      path.Nodup ∧ path ⊆ available ∧ IsWalk (fun a b => b ∈ links a) current path start := by
  induction path generalizing available current with
  | nil => simp [nil_mem_returnsTo_iff]
  | cons next rest ih =>
      have remaining : rest ⊆ available.erase next ↔ next ∉ rest ∧ rest ⊆ available := by
        constructor
        · intro kept
          exact ⟨fun again => distinct.not_mem_erase (kept again),
            fun _ passed => List.mem_of_mem_erase (kept passed)⟩
        · rintro ⟨fresh, kept⟩ x passed
          apply distinct.mem_erase_iff.mpr
          exact ⟨fun same => fresh (same ▸ passed), kept passed⟩
      rw [cons_mem_returnsTo_iff, ih (distinct.erase next), remaining, List.nodup_cons,
        List.cons_subset, isWalk_cons]
      tauto

theorem nodup_returnsTo {available : List String} (distinct : available.Nodup) :
    (returnsTo links start available current).Nodup := by
  induction size : available.length generalizing available current with
  | zero =>
      rw [List.length_eq_zero_iff.mp size, returnsTo_eq]
      split <;> simp
  | succ n ih =>
      rw [returnsTo_eq]
      apply List.Nodup.append
      · split <;> simp
      · apply List.nodup_flatMap.mpr
        constructor
        · intro next passed
          have free : next ∈ available := (List.mem_filter.mp passed).1
          apply List.Nodup.map (List.cons_injective)
          apply ih (distinct.erase next)
          rw [List.length_erase_of_mem free, size]
          rfl
        -- Ways over different nodes differ in their first node.
        · apply (distinct.filter _).imp
          intro one other apart path viaOne viaOther
          obtain ⟨_, -, rfl⟩ := List.mem_map.mp viaOne
          obtain ⟨_, -, same⟩ := List.mem_map.mp viaOther
          exact apart (List.cons.inj same).1.symm
      · intro path closing passing
        obtain ⟨next, -, via⟩ := List.mem_flatMap.mp passing
        obtain ⟨_, -, rfl⟩ := List.mem_map.mp via
        split at closing <;> simp at closing

variable {keys known : List String}

theorem growSources_sublist {rounds : Nat} (inside : known.Sublist keys) :
    (growSources links keys rounds known).Sublist keys := by
  induction rounds generalizing known with
  | zero => exact inside
  | succ rounds ih => exact ih List.filter_sublist

theorem mem_growSources_of_mem {rounds : Nat} {key : String} (inside : known ⊆ keys)
    (found : key ∈ known) : key ∈ growSources links keys rounds known := by
  induction rounds generalizing known with
  | zero => exact found
  | succ rounds ih =>
      apply ih (List.filter_subset_self keys)
      apply List.mem_filter.mpr
      exact ⟨inside found, by simp [found]⟩

/-- In one round a key is found that leads to a known one. -/
theorem mem_round_of_link {key next : String} (stored : key ∈ keys) (linked : next ∈ links key)
    (found : next ∈ known) :
    key ∈ keys.filter fun k => known.contains k || (links k).any known.contains := by
  apply List.mem_filter.mpr
  refine ⟨stored, Bool.or_eq_true_iff.mpr (.inr (List.any_eq_true.mpr ?_))⟩
  exact ⟨next, linked, List.contains_iff_mem.mpr found⟩

/-- A walk into the known keys is followed back by one node in each round. -/
theorem mem_growSources_of_isWalk {rounds : Nat} {first last : String} {path : List String}
    (walk : IsWalk (fun a b => b ∈ links a) first path last) (found : last ∈ known)
    (stored : first :: path ⊆ keys) (enough : path.length < rounds) :
    first ∈ growSources links keys rounds known := by
  -- The node before the known ones joins them first, so the path is taken apart from its end.
  induction path using List.reverseRecOn generalizing rounds known last with
  | nil =>
      obtain ⟨rounds, rfl⟩ := Nat.exists_eq_add_one_of_ne_zero (Nat.ne_zero_of_lt enough)
      apply mem_growSources_of_mem (List.filter_subset_self keys)
      exact mem_round_of_link (stored List.mem_cons_self) (isWalk_nil.mp walk) found
  | append_singleton before stop ih =>
      obtain ⟨rounds, rfl⟩ := Nat.exists_eq_add_one_of_ne_zero (Nat.ne_zero_of_lt enough)
      obtain ⟨earlier, step⟩ := isWalk_append.mp walk
      have stop_stored : stop ∈ keys := stored (by simp)
      apply ih earlier (mem_round_of_link stop_stored (isWalk_nil.mp step) found)
      · exact List.Subset.trans (List.cons_subset_cons _ (List.subset_append_left _ _)) stored
      · rw [List.length_append] at enough
        exact Nat.lt_of_succ_lt_succ enough

theorem sourcesOf_sublist : (sourcesOf links keys start).Sublist keys :=
  growSources_sublist List.filter_sublist

/-- A key is kept if a walk through some of the given keys leads from it to the start. -/
theorem mem_sourcesOf_of_isWalk {first : String} {path : List String}
    (walk : IsWalk (fun a b => b ∈ links a) first path start) (stored : first :: path ⊆ keys)
    (distinct : (first :: path).Nodup) : first ∈ sourcesOf links keys start := by
  have closing {key : String} (listed : key ∈ keys) (linked : start ∈ links key) :
      key ∈ keys.filter fun k => (links k).contains start :=
    List.mem_filter.mpr ⟨listed, List.contains_iff_mem.mpr linked⟩
  have short : path.length < keys.length := (distinct.subperm stored).length_le
  rcases List.eq_nil_or_concat' path with rfl | ⟨before, stop, rfl⟩
  · apply mem_growSources_of_mem (List.filter_subset_self keys)
    exact closing (stored List.mem_cons_self) (isWalk_nil.mp walk)
  · obtain ⟨earlier, step⟩ := isWalk_append.mp walk
    apply mem_growSources_of_isWalk earlier
    · exact closing (stored (by simp)) (isWalk_nil.mp step)
    · exact List.Subset.trans (List.cons_subset_cons _ (List.subset_append_left _ _)) stored
    · rw [List.length_append] at short
      exact Nat.lt_of_succ_lt short

theorem mem_returnsTo_sourcesOf_iff {path : List String} (distinct : keys.Nodup) :
    path ∈ returnsTo links start (sourcesOf links keys start) current ↔
      path.Nodup ∧ path ⊆ keys ∧ IsWalk (fun a b => b ∈ links a) current path start := by
  rw [mem_returnsTo_iff (distinct.sublist sourcesOf_sublist)]
  constructor
  · rintro ⟨once, kept, walk⟩
    exact ⟨once, fun _ passed => sourcesOf_sublist.subset (kept passed), walk⟩
  · rintro ⟨once, stored, walk⟩
    refine ⟨once, ?_, walk⟩
    intro key passed
    obtain ⟨before, after, rfl⟩ := List.append_of_mem passed
    apply mem_sourcesOf_of_isWalk (isWalk_append.mp walk).2
    · exact fun _ later => stored (List.mem_append_right _ later)
    · exact once.of_append_right

end Search

/-- Two rotations of one list are equal if both begin with their least element. -/
theorem eq_of_isRotated_of_least {first other : String} {rest others : List String}
    (rotated : (first :: rest).IsRotated (other :: others))
    (least : ∀ key ∈ rest, first < key) (other_least : ∀ key ∈ others, other < key) :
    first :: rest = other :: others := by
  have same : first = other := by
    rcases List.mem_cons.mp (rotated.mem_iff.mp List.mem_cons_self) with same | above
    · exact same
    · rcases List.mem_cons.mp (rotated.mem_iff.mpr List.mem_cons_self) with same | below
      · exact same.symm
      · exact absurd (least _ below) (String.lt_asymm (other_least _ above))
  subst same
  have fresh : first ∉ rest := fun again => String.lt_irrefl _ (least _ again)
  obtain ⟨n, bound, turned⟩ := List.isRotated_iff_mod.mp rotated
  rw [List.rotate_eq_drop_append_take bound] at turned
  cases n with
  | zero => rwa [List.drop_zero, List.take_zero, List.append_nil] at turned
  | succ n =>
      rw [List.drop_succ_cons, List.take_succ_cons] at turned
      -- Unless the turn is a full one, a later element comes first.
      cases later : rest.drop n with
      | nil =>
          rw [later, List.take_of_length_le (List.drop_eq_nil_iff.mp later)] at turned
          exact turned
      | cons key _ =>
          rw [later] at turned
          have here : key = first := (List.cons.inj turned).1
          have passed : key ∈ rest := List.mem_of_mem_drop (later ▸ List.mem_cons_self)
          exact absurd (here ▸ passed) fresh

/-- A list without repetition can be rotated so that it begins with its least element. -/
theorem exists_isRotated_least {c : List String} (nonempty : c ≠ []) (distinct : c.Nodup) :
    ∃ first rest, c.IsRotated (first :: rest) ∧ ∀ key ∈ rest, first < key := by
  have members {key : String} : key ∈ (NameSet.ofList c).toList ↔ key ∈ c := NameSet.mem_ofList
  have ascending := (NameSet.ofList c).ascending
  cases sorted : (NameSet.ofList c).toList with
  | nil =>
      exfalso
      obtain ⟨key, passed⟩ := List.exists_mem_of_ne_nil c nonempty
      rw [← members, sorted] at passed
      exact List.not_mem_nil passed
  | cons first greater =>
      rw [sorted] at members ascending
      obtain ⟨before, after, split⟩ := List.append_of_mem (members.mp List.mem_cons_self)
      have turned : c.IsRotated (first :: (after ++ before)) := by
        rw [split]
        exact List.isRotated_append
      refine ⟨first, after ++ before, turned, fun key passed => ?_⟩
      have apart : key ≠ first := by
        rintro rfl
        exact (List.nodup_cons.mp (turned.nodup_iff.mp distinct)).1 passed
      have listed : key ∈ first :: greater :=
        members.mpr (turned.mem_iff.mpr (List.mem_cons_of_mem _ passed))
      rcases List.mem_cons.mp listed with same | above
      · exact absurd same apart
      · exact (List.pairwise_cons.mp ascending).1 key above

namespace DependencyGraph

/-! ## The cycles of a graph -/

def Links (g : DependencyGraph) (source target : String) : Prop :=
  g.hasEdge source target = true

/-- A closed walk that passes no node twice, wherever it begins. -/
def IsElementary (g : DependencyGraph) (c : Cycle String) : Prop :=
  c ≠ Cycle.nil ∧ c.Nodup ∧ c.Chain g.Links

/-- The list has all elementary cycles of the graph and nothing else. -/
structure ListsCycles (g : DependencyGraph) (listed : List (List String)) : Prop where
  mem_iff : ∀ c : Cycle String, c ∈ listed.map Cycle.ofList ↔ g.IsElementary c
  /-- No two entries are rotations of each other. -/
  once : (listed.map Cycle.ofList).Nodup
  singleton_mem_iff : ∀ key, [key] ∈ listed ↔ g.hasEdge key key = true
  /-- There is an entry unless no node can be reached from itself. -/
  eq_nil_iff : listed = [] ↔ ∀ key, ¬ Relation.TransGen g.Links key key

variable {g : DependencyGraph}

theorem isWalk_targets_iff {first last : String} {path : List String} :
    IsWalk (fun a b => b ∈ g.targets a) first path last ↔ IsWalk g.Links first path last := by
  simp only [mem_targets_iff]
  rfl

theorem mem_cyclesFrom_iff {ordered : List String} (distinct : ordered.Nodup) {start : String}
    {c : List String} :
    c ∈ g.cyclesFrom ordered start ↔
      ∃ rest, c = start :: rest ∧ rest.Nodup ∧ (∀ key ∈ rest, key ∈ ordered ∧ start < key) ∧
        IsWalk g.Links start rest start := by
  rw [cyclesFrom, List.mem_map]
  simp only [mem_returnsTo_sourcesOf_iff (distinct.filter _), isWalk_targets_iff,
    List.subset_def, List.mem_filter, decide_eq_true_eq]
  constructor
  · rintro ⟨rest, found, rfl⟩
    exact ⟨rest, rfl, found⟩
  · rintro ⟨rest, rfl, found⟩
    exact ⟨rest, found, rfl⟩

/-- Each cycle is listed from its least key on. -/
theorem mem_cycles_iff {c : List String} :
    c ∈ g.cycles ↔
      ∃ start rest, c = start :: rest ∧ start ∈ g.keys ∧ rest.Nodup ∧
        (∀ key ∈ rest, key ∈ g.keys ∧ start < key) ∧ IsWalk g.Links start rest start := by
  rw [cycles, List.mem_flatMap]
  simp only [mem_cyclesFrom_iff ((NameSet.ofList g.keys).nodup), NameSet.mem_ofList]
  constructor
  · rintro ⟨start, stored, rest, rfl, found⟩
    exact ⟨start, rest, rfl, stored, found⟩
  · rintro ⟨start, rest, rfl, stored, found⟩
    exact ⟨start, stored, rest, rfl, found⟩

theorem nodup_cycles : g.cycles.Nodup := by
  have distinct := (NameSet.ofList g.keys).nodup
  apply List.nodup_flatMap.mpr
  constructor
  · intro start _
    apply List.Nodup.map List.cons_injective
    exact nodup_returnsTo ((distinct.filter _).sublist sourcesOf_sublist)
  · apply distinct.imp
    intro one other apart c fromOne fromOther
    obtain ⟨_, rfl, -⟩ := (mem_cyclesFrom_iff distinct).mp fromOne
    obtain ⟨_, same, -⟩ := (mem_cyclesFrom_iff distinct).mp fromOther
    exact apart (List.cons.inj same).1

theorem isElementary_cons_iff {first : String} {rest : List String} :
    g.IsElementary (Cycle.ofList (first :: rest)) ↔
      (first :: rest).Nodup ∧ IsWalk g.Links first rest first := by
  simp [IsElementary, IsWalk]

/-- Every node of a walk but the last has an edge out of it. -/
theorem Intact.mem_keys_of_isWalk (intact : g.Intact) {first last : String} {path : List String}
    (walk : IsWalk g.Links first path last) : first :: path ⊆ g.keys := by
  induction path generalizing first with
  | nil =>
      have step : g.Links first last := isWalk_nil.mp walk
      rw [List.cons_subset]
      exact ⟨(intact.ends_mem_keys step).1, List.nil_subset _⟩
  | cons next rest ih =>
      obtain ⟨step, later⟩ := isWalk_cons.mp walk
      rw [List.cons_subset]
      exact ⟨(intact.ends_mem_keys step).1, ih later⟩

theorem Intact.mem_cycles_iff (intact : g.Intact) {first : String} {rest : List String} :
    first :: rest ∈ g.cycles ↔
      g.IsElementary (Cycle.ofList (first :: rest)) ∧
        ∀ key ∈ rest, first < key := by
  rw [DependencyGraph.mem_cycles_iff, isElementary_cons_iff, List.nodup_cons]
  constructor
  · rintro ⟨start, others, same, -, once, greater, walk⟩
    cases same
    exact ⟨⟨⟨fun again => String.lt_irrefl _ (greater _ again).2, once⟩, walk⟩,
      fun key passed => (greater key passed).2⟩
  · rintro ⟨⟨⟨-, once⟩, walk⟩, least⟩
    have stored := intact.mem_keys_of_isWalk walk
    exact ⟨first, rest, rfl, stored List.mem_cons_self, once,
      fun key passed => ⟨stored (List.mem_cons_of_mem _ passed), least key passed⟩, walk⟩

theorem Intact.mem_map_cycles_iff (intact : g.Intact) {c : Cycle String} :
    c ∈ g.cycles.map Cycle.ofList ↔ g.IsElementary c := by
  rw [List.mem_map]
  constructor
  · rintro ⟨listed, found, rfl⟩
    obtain ⟨first, rest, rfl, -⟩ := DependencyGraph.mem_cycles_iff.mp found
    exact (intact.mem_cycles_iff.mp found).1
  · -- The cycle is listed from its least key on.
    induction c using Cycle.induction_on with
    | nil => exact fun elementary => absurd rfl elementary.1
    | cons head tail =>
        intro elementary
        have distinct : (head :: tail).Nodup := elementary.2.1
        obtain ⟨first, rest, turned, least⟩ :=
          exists_isRotated_least (List.cons_ne_nil head tail) distinct
        have same : Cycle.ofList (head :: tail) = Cycle.ofList (first :: rest) :=
          Cycle.coe_eq_coe.mpr turned
        rw [same] at elementary ⊢
        exact ⟨first :: rest, intact.mem_cycles_iff.mpr ⟨elementary, least⟩, rfl⟩

/-- A node that can be reached from itself lies on an elementary cycle. -/
theorem exists_isElementary_of_transGen {key : String}
    (reached : Relation.TransGen g.Links key key) : ∃ c, g.IsElementary c := by
  obtain ⟨path, walk⟩ := exists_isWalk_of_transGen reached
  obtain ⟨short, closed, once, fresh, -⟩ := walk.exists_simple
  exact ⟨Cycle.ofList (key :: short),
    isElementary_cons_iff.mpr ⟨List.nodup_cons.mpr ⟨fresh, once⟩, closed⟩⟩

theorem Intact.listsCycles (intact : g.Intact) : g.ListsCycles g.cycles where
  mem_iff _ := intact.mem_map_cycles_iff
  once := by
    apply nodup_cycles.map_on
    intro one listed other also_listed same
    obtain ⟨first, rest, rfl, -⟩ := DependencyGraph.mem_cycles_iff.mp listed
    obtain ⟨start, others, rfl, -⟩ := DependencyGraph.mem_cycles_iff.mp also_listed
    apply eq_of_isRotated_of_least (Cycle.coe_eq_coe.mp same)
    · exact (intact.mem_cycles_iff.mp listed).2
    · exact (intact.mem_cycles_iff.mp also_listed).2
  singleton_mem_iff key := by
    rw [intact.mem_cycles_iff, isElementary_cons_iff, isWalk_nil]
    simp [Links]
  eq_nil_iff := by
    constructor
    · intro none key reached
      obtain ⟨c, elementary⟩ := exists_isElementary_of_transGen reached
      have listed := intact.mem_map_cycles_iff.mpr elementary
      rw [none] at listed
      exact List.not_mem_nil listed
    · intro acyclic
      apply List.eq_nil_iff_forall_not_mem.mpr
      intro c listed
      obtain ⟨start, rest, -, -, -, -, walk⟩ := DependencyGraph.mem_cycles_iff.mp listed
      exact acyclic start walk.transGen

/-- Whatever was added to an empty graph, refused edges among it, its cycles are listed. -/
theorem listsCycles_attemptAll (requests : List Addition) :
    (({} : DependencyGraph).attemptAll requests).ListsCycles
      (({} : DependencyGraph).attemptAll requests).cycles :=
  (intact_empty.attemptAll requests).listsCycles

end DependencyGraph

end SourceAtlas.Graph
