/-
# Building again changes nothing

A second build of the same files makes the same additions as the first, and a graph that has seen
additions is not changed by seeing them again. Nothing is assumed of the files, and the graph may
have seen other builds before.

On the way a second build does change things: a file gets the contents of every file that was put
under its key, one after the other, and an import is a containment until the links are drawn. That
all of this settles where it was is a law of merging. Nodes of one variant, and edges between the
same ends, merge associatively, and each of them merges with itself to itself; so what a list of
them comes to is reached again when the list is repeated. Nodes of other variants than the one that
remains never have an effect.
-/

import SourceAtlas.Proofs.Graph.Content
import SourceAtlas.Proofs.Text.NameSet

namespace SourceAtlas.Graph

/-- The law of a merge by which items settle one after the other: it is associative, and an item
merges with itself to itself. What is there at the start need not be an item. -/
structure MergeLaw {α : Type} (merge : α → α → α) (settle : Option α → α → Option α)
    (Start Item : α → Prop) : Prop where
  first : ∀ a, settle none a = some a
  next : ∀ a b, settle (some a) b = some (merge a b)
  assoc : ∀ {a b c}, Start a → Item b → Item c → merge (merge a b) c = merge a (merge b c)
  self : ∀ {a}, Item a → merge a a = a
  item : ∀ {a b}, Item a → Item b → Item (merge a b)
  start : ∀ {a b}, Start a → Item b → Start (merge a b)
  start_of_item : ∀ {a}, Item a → Start a

namespace MergeLaw

variable {α : Type} {merge : α → α → α} {settle : Option α → α → Option α} {Start Item : α → Prop}

/-- Items that are merged one by one could be merged with each other first. -/
theorem foldl_merge (law : MergeLaw merge settle Start Item) {a b : α} (start : Start a)
    (item : Item b) {items : List α} (all : ∀ c ∈ items, Item c) :
    ∃ p, Item p ∧ items.foldl settle (some b) = some p ∧
      items.foldl settle (some (merge a b)) = some (merge a p) := by
  induction items generalizing b with
  | nil => exact ⟨b, item, rfl, rfl⟩
  | cons c rest ih =>
      have this : Item c := all c List.mem_cons_self
      rw [List.foldl_cons, List.foldl_cons, law.next, law.next, law.assoc start item this]
      exact ih (law.item item this) fun d later => all d (List.mem_cons_of_mem _ later)

/-- **What items come to is reached again when they are repeated.** -/
theorem foldl_twice (law : MergeLaw merge settle Start Item) {start : Option α}
    (before : ∀ a, start = some a → Start a) {items : List α} (all : ∀ c ∈ items, Item c) :
    items.foldl settle (items.foldl settle start) = items.foldl settle start := by
  cases items with
  | nil => rfl
  | cons b rest =>
      have item : Item b := all b List.mem_cons_self
      have later : ∀ c ∈ rest, Item c := fun c given => all c (List.mem_cons_of_mem _ given)
      obtain ⟨p, whole, alone, -⟩ := law.foldl_merge (law.start_of_item item) item later
      -- From any start, the items come to the start merged with what they come to by themselves.
      have from_some {a : α} (given : Start a) :
          (b :: rest).foldl settle (some a) = some (merge a p) := by
        obtain ⟨q, -, same, merged⟩ := law.foldl_merge given item later
        cases alone.symm.trans same
        rw [List.foldl_cons, law.next, merged]
      cases start with
      | none =>
          have from_none : (b :: rest).foldl settle none = some p := by
            rw [List.foldl_cons, law.first, alone]
          rw [from_none, from_some (law.start_of_item whole), law.self whole]
      | some a =>
          have given : Start a := before a rfl
          rw [from_some given, from_some (law.start given whole), law.assoc given whole whole,
            law.self whole]

end MergeLaw

theorem mergeStart_self (line : Int) : mergeStart line line = line := by
  simp [mergeStart]

theorem mergeStart_assoc (a b c : Int) :
    mergeStart (mergeStart a b) c = mergeStart a (mergeStart b c) := by
  by_cases unknown : a = 0 <;> simp [mergeStart, unknown]

theorem ComponentDetails.merge_self (d : ComponentDetails) : d.merge d = d := by
  simp [ComponentDetails.merge, NameSet.union_self]

theorem ComponentDetails.merge_assoc (a b c : ComponentDetails) :
    (a.merge b).merge c = a.merge (b.merge c) := by
  simp [ComponentDetails.merge, NameSet.union_assoc]

namespace Node

theorem absorb_self (n : Node) : n.absorb n = n := by
  cases n with
  | file n => rfl
  | component n =>
      simp [absorb, merge?, ComponentNode.merge, mergeStart_self, ComponentDetails.merge_self]
  | utility n => simp [absorb, merge?, UtilityNode.merge, mergeStart_self]
  | module n => simp [absorb, merge?, ModuleNode.merge]

/-- Merging is associative among nodes of one variant. Across variants it is not: the first one
keeps the key, and only its own variant still has an effect on it. -/
theorem absorb_assoc {a b c : Node} (ab : b.kind = a.kind) (bc : c.kind = a.kind) :
    (a.absorb b).absorb c = a.absorb (b.absorb c) := by
  cases a with
  | file a =>
      cases b <;> cases ab
      cases c <;> cases bc
      rfl
  | component a =>
      cases b <;> cases ab
      cases c <;> cases bc
      simp [absorb, merge?, ComponentNode.merge, mergeStart_assoc, Int.max_assoc,
        ComponentDetails.merge_assoc]
  | utility a =>
      cases b <;> cases ab
      cases c <;> cases bc
      simp [absorb, merge?, UtilityNode.merge, mergeStart_assoc, Int.max_assoc]
  | module a =>
      cases b <;> cases ab
      cases c <;> cases bc
      simp [absorb, merge?, ModuleNode.merge, Bool.or_assoc, Bool.and_assoc]

theorem kind_absorb_of_kind_eq {a b : Node} (same : b.kind = a.kind) :
    (a.absorb b).kind = a.kind := by
  rw [kind_absorb, same, ite_self]

/-- A node that is no placeholder is changed by its own variant only. -/
theorem absorb_of_kind_ne {old new : Node} (solid : old.isSolid = true)
    (other : new.kind ≠ old.kind) : old.absorb new = old := by
  cases old <;> cases new <;> simp_all [isSolid, kind, absorb, merge?]

/-- A node that is no placeholder keeps its variant whatever comes later. -/
theorem kind_of_foldl_settle {old n : Node} {nodes : List Node} (solid : old.isSolid = true)
    (found : nodes.foldl settle (some old) = some n) : n.kind = old.kind := by
  induction nodes generalizing old with
  | nil =>
      cases found
      rfl
  | cons new rest ih =>
      have kept : (old.absorb new).kind = old.kind := by rw [kind_absorb, if_pos solid]
      have still : (old.absorb new).isSolid = true := by rw [isSolid_absorb, solid, Bool.true_or]
      rw [← kept]
      exact ih still found

/-- One step of the history of a key, seen by the variant that remains in the end. -/
theorem filter_kind_settle {start : Option Node} {new n : Node} {rest : List Node}
    (found : rest.foldl settle (settle start new) = some n) :
    (settle start new).filter (·.kind = n.kind) =
      if new.kind = n.kind then settle (start.filter (·.kind = n.kind)) new
      else start.filter (·.kind = n.kind) := by
  cases start with
  | none => by_cases same : new.kind = n.kind <;> simp [settle, same]
  | some old =>
      cases solid : old.isSolid with
      | true =>
          have still : (old.absorb new).isSolid = true := by
            rw [isSolid_absorb, solid, Bool.true_or]
          have kept : (old.absorb new).kind = old.kind := by rw [kind_absorb, if_pos solid]
          have remains : n.kind = old.kind := (kind_of_foldl_settle still found).trans kept
          by_cases same : new.kind = old.kind
          · simp [settle, Option.filter, kept, remains, same]
          · simp [settle, Option.filter, absorb_of_kind_ne solid same, remains, same]
      | false =>
          -- The new node decides the variant for now, and for good unless it is a placeholder too.
          have taken : (old.absorb new).kind = new.kind := by simp [kind_absorb, solid]
          have loose : old.kind = .module := by simpa [isSolid] using solid
          by_cases same : new.kind = n.kind
          · by_cases placeholder : n.kind = .module
            · simp [settle, Option.filter, taken, same, loose, placeholder]
            · have newSolid : new.isSolid = true := by simpa [isSolid, same] using placeholder
              have replaced : old.absorb new = new := absorb_of_isSolid solid newSolid
              have away : ¬ NodeKind.module = n.kind := fun h => placeholder h.symm
              simp [settle, Option.filter, replaced, same, loose, away]
          · have away : ¬ NodeKind.module = n.kind := by
              intro placeholder
              have newSolid : new.isSolid = true := by
                rw [← placeholder] at same
                simpa [isSolid] using same
              rw [settle, absorb_of_isSolid solid newSolid] at found
              exact same (kind_of_foldl_settle newSolid found).symm
            simp [settle, Option.filter, taken, same, loose, away]

/-- **Only the variant that remains has an effect.** What a key holds in the end is what the nodes
of that variant come to by themselves. -/
theorem foldl_settle_filter_kind {start : Option Node} {nodes : List Node} {n : Node}
    (found : nodes.foldl settle start = some n) :
    (nodes.filter (·.kind = n.kind)).foldl settle (start.filter (·.kind = n.kind)) = some n := by
  induction nodes generalizing start with
  | nil =>
      cases found
      simp [Option.filter]
  | cons new rest ih =>
      have later := ih found
      rw [filter_kind_settle found] at later
      by_cases same : new.kind = n.kind
      · rw [List.filter_cons_of_pos (by simpa using same), List.foldl_cons]
        simpa [same] using later
      · rw [List.filter_cons_of_neg (by simpa using same)]
        simpa [same] using later

/-- Nodes of one variant merge by the law. -/
theorem mergeLaw (kind : NodeKind) :
    MergeLaw absorb settle (fun n => n.kind = kind) (fun n => n.kind = kind) where
  first _ := rfl
  next _ _ := rfl
  assoc a b c := absorb_assoc (b.trans a.symm) (c.trans a.symm)
  self _ := absorb_self _
  item a b := (kind_absorb_of_kind_eq (b.trans a.symm)).trans a
  start a b := (kind_absorb_of_kind_eq (b.trans a.symm)).trans a
  start_of_item a := a

/-- A second run through the nodes of a key leaves the variant that the first one found. -/
theorem kind_of_foldl_settle_twice {start : Option Node} {nodes : List Node} {n m : Node}
    (found : nodes.foldl settle start = some n) (again : nodes.foldl settle (some n) = some m) :
    m.kind = n.kind := by
  cases solid : n.isSolid with
  | true => exact kind_of_foldl_settle solid again
  | false =>
      -- A placeholder remains only where nothing but placeholders was put.
      have loose : (some n).filter isSolid = none := by simp [Option.filter, solid]
      have nothing := filter_foldl_settle start nodes
      rw [found, loose, eq_comm, DependencyGraph.foldl_settle_eq_none_iff] at nothing
      have still := filter_foldl_settle (some n) nodes
      rw [again, loose, nothing.2, List.foldl_nil] at still
      have m_solid : m.isSolid = false := by simpa [Option.filter] using still
      rw [isSolid, bne_eq_false_iff_eq] at solid m_solid
      rw [solid, m_solid]

/-- **The nodes put under a key settle where they did when they are put there again.** -/
theorem foldl_settle_again (start : Option Node) (nodes : List Node) :
    nodes.foldl settle (nodes.foldl settle start) = nodes.foldl settle start := by
  cases found : nodes.foldl settle start with
  | none => rw [(DependencyGraph.foldl_settle_eq_none_iff.mp found).2, List.foldl_nil]
  | some n =>
      cases again : nodes.foldl settle (some n) with
      | none => cases (DependencyGraph.foldl_settle_eq_none_iff.mp again).1
      | some m =>
          have kind : m.kind = n.kind := kind_of_foldl_settle_twice found again
          have first_run := foldl_settle_filter_kind found
          have second_run := foldl_settle_filter_kind again
          rw [kind, Option.filter_some_pos (by simp), ← first_run] at second_run
          rw [← second_run, ← first_run]
          refine (mergeLaw n.kind).foldl_twice ?_ ?_
          · intro a given
            simpa using (Option.filter_eq_some_iff.mp given).2
          · intro a given
            simpa using (List.mem_filter.mp given).2

end Node

namespace DependencyGraph

theorem setAttribute_setAttribute (name : String) (earlier later : Json)
    (attributes : List (String × Json)) :
    setAttribute name later (setAttribute name earlier attributes) =
      setAttribute name later attributes := by
  induction attributes with
  | nil => simp [setAttribute]
  | cons entry rest ih =>
      by_cases here : entry.1 = name <;> simp [setAttribute, here, ih]

end DependencyGraph

/-- Edges that know at most a line merge by the law, whatever they are drawn over. -/
theorem Edge.mergeLaw :
    MergeLaw DependencyGraph.Edge.overwrite Edge.settle (fun _ => True) Edge.IsDrawn where
  first _ := rfl
  next _ _ := rfl
  assoc {a b c} _ b_drawn c_drawn := by
    rcases b_drawn with b_none | ⟨bLine, b_line⟩ <;>
      rcases c_drawn with c_none | ⟨cLine, c_line⟩ <;>
      simp [DependencyGraph.Edge.overwrite, DependencyGraph.setAttribute,
        DependencyGraph.setAttribute_setAttribute, *]
  self {a} drawn := by
    obtain ⟨source, target, kind, attributes⟩ := a
    rcases drawn with none | ⟨line, one⟩
    · cases none
      rfl
    · cases one
      simp [DependencyGraph.Edge.overwrite, DependencyGraph.setAttribute]
  item a b := a.overwrite b
  start _ _ := trivial
  start_of_item _ := trivial

/-! ## Histories that are repeated -/

namespace DependencyGraph

/-- The nodes of a graph in the order of its keys. -/
theorem entries_eq_filterMap_keys {g : DependencyGraph} (distinct : g.keys.Nodup) :
    g.entries = g.keys.filterMap fun key => (g.node? key).map (Prod.mk key) := by
  rw [keys, List.filterMap_map]
  conv_lhs => rw [← List.filterMap_some (l := g.entries)]
  refine List.filterMap_congr fun entry stored => ?_
  rw [Function.comp_apply, node?_of_mem_entries distinct stored]
  rfl

theorem arcs_eq_filterMap_ends {g : DependencyGraph} (distinct : (g.arcs.map Edge.ends).Nodup) :
    g.arcs = (g.arcs.map Edge.ends).filterMap fun ends => g.edge? ends.1 ends.2 := by
  rw [List.filterMap_map]
  conv_lhs => rw [← List.filterMap_some (l := g.arcs)]
  refine List.filterMap_congr fun e stored => ?_
  exact (edge?_of_mem_arcs distinct stored).symm

/-- Two graphs are the same if they have the same keys and ends in the same order and hold the
same under and between them. -/
theorem eq_of_same {g h : DependencyGraph} (g_keys : g.keys.Nodup)
    (g_ends : (g.arcs.map Edge.ends).Nodup) (keys : h.keys = g.keys)
    (nodes : ∀ key, h.node? key = g.node? key)
    (ends : h.arcs.map Edge.ends = g.arcs.map Edge.ends)
    (edges : ∀ source target, h.edge? source target = g.edge? source target) : h = g := by
  have entries : h.entries = g.entries := by
    rw [entries_eq_filterMap_keys g_keys, entries_eq_filterMap_keys (keys ▸ g_keys), keys]
    simp only [nodes]
  have arcs : h.arcs = g.arcs := by
    rw [arcs_eq_filterMap_ends g_ends, arcs_eq_filterMap_ends (ends ▸ g_ends), ends]
    simp only [edges]
  obtain ⟨hEntries, hArcs⟩ := h
  obtain ⟨gEntries, gArcs⟩ := g
  cases entries
  cases arcs
  rfl

/-- New keys come after the known ones. -/
theorem exists_keys_applyAll (g : DependencyGraph) (additions : List Addition) :
    ∃ new, (g.applyAll additions).keys = g.keys ++ new := by
  induction additions generalizing g with
  | nil => exact ⟨[], (List.append_nil _).symm⟩
  | cons a rest ih =>
      obtain ⟨later, appended⟩ := ih (g.apply a)
      rw [applyAll_cons, appended]
      cases a with
      | edge e => exact ⟨later, rfl⟩
      | node key n =>
          rw [apply, keys_addNode]
          split
          · exact ⟨later, rfl⟩
          · exact ⟨key :: later, by simp⟩

/-- Of the keys that matter, a history whose keys of that sort are known adds none. -/
theorem filter_keys_applyAll_of_known {matters : String → Bool} {g : DependencyGraph}
    {additions : List Addition}
    (known : ∀ key n, .node key n ∈ additions → matters key = true → key ∈ g.keys) :
    (g.applyAll additions).keys.filter matters = g.keys.filter matters := by
  induction additions generalizing g with
  | nil => rfl
  | cons a rest ih =>
      have grown : g.keys ⊆ (g.apply a).keys := by
        obtain ⟨new, appended⟩ := exists_keys_applyAll g [a]
        rw [applyAll_cons, applyAll_nil] at appended
        rw [appended]
        exact List.subset_append_left _ _
      have same : (g.apply a).keys.filter matters = g.keys.filter matters := by
        cases a with
        | edge e => rfl
        | node key n =>
            rw [apply, keys_addNode]
            split
            · rfl
            · rename_i fresh
              have idle : matters key = false := Bool.eq_false_iff.mpr fun counts =>
                fresh (known key n List.mem_cons_self counts)
              rw [List.filter_append, List.filter_singleton, idle, cond_false, List.append_nil]
      rw [applyAll_cons, ih, same]
      intro key n later counts
      exact grown (known key n (List.mem_cons_of_mem _ later) counts)

theorem keys_applyAll_of_known {g : DependencyGraph} {additions : List Addition}
    (known : ∀ key n, .node key n ∈ additions → key ∈ g.keys) :
    (g.applyAll additions).keys = g.keys := by
  have all : (g.applyAll additions).keys.filter (fun _ => true) = g.keys.filter fun _ => true :=
    filter_keys_applyAll_of_known fun key n made _ => known key n made
  rwa [List.filter_true, List.filter_true] at all

theorem ends_applyAll_of_known {g : DependencyGraph} {additions : List Addition}
    (known : ∀ e, .edge e ∈ additions → e.ends ∈ g.arcs.map Edge.ends) :
    (g.applyAll additions).arcs.map Edge.ends = g.arcs.map Edge.ends := by
  induction additions generalizing g with
  | nil => rfl
  | cons a rest ih =>
      have same : (g.apply a).arcs.map Edge.ends = g.arcs.map Edge.ends := by
        cases a with
        | node key n => rfl
        | edge e => rw [apply, ends_insertArc, if_pos (known e List.mem_cons_self)]
      rw [applyAll_cons, ih, same]
      intro e later
      rw [same]
      exact known e (List.mem_cons_of_mem _ later)

theorem ends_mem_applyAll {g : DependencyGraph} {additions : List Addition} {e : Edge}
    (made : .edge e ∈ additions) : e.ends ∈ (g.applyAll additions).arcs.map Edge.ends := by
  by_contra absent
  have none : (g.applyAll additions).edge? e.source e.target = none := edge?_eq_none_iff.mpr absent
  rw [edge?_applyAll, foldl_edgeSettle_eq_none_iff] at none
  have put : e ∈ edgesBetween e.source e.target additions :=
    mem_edgesBetween.mpr ⟨made, Edge.joins_eq_true_iff.mpr rfl⟩
  rw [none.2] at put
  cases put

/-- **A history that is repeated changes nothing more.** Its edges know at most a line. -/
theorem Sound.applyAll_applyAll {g : DependencyGraph} (sound : g.Sound)
    {additions : List Addition} (drawn : ∀ e, .edge e ∈ additions → e.IsDrawn) :
    (g.applyAll additions).applyAll additions = g.applyAll additions := by
  refine eq_of_same (nodup_keys_applyAll sound.keys_nodup _)
    (nodup_ends_applyAll sound.ends_nodup _) ?_ ?_ ?_ ?_
  · refine keys_applyAll_of_known fun key n made => ?_
    exact mem_keys_applyAll.mpr (.inr ⟨n, made⟩)
  · intro key
    rw [node?_applyAll, node?_applyAll, Node.foldl_settle_again]
  · exact ends_applyAll_of_known fun e made => ends_mem_applyAll made
  · intro source target
    rw [edge?_applyAll, edge?_applyAll]
    refine Edge.mergeLaw.foldl_twice (fun _ _ => trivial) fun e put => ?_
    exact drawn e (mem_edgesBetween.mp put).1

/-- The files of a graph are found among the nodes that are no placeholders. -/
theorem fileImports_eq_filterMap_keys {g : DependencyGraph} (distinct : g.keys.Nodup) :
    g.fileImports = g.keys.filterMap fun key =>
      (((g.node? key).filter Node.isSolid).bind fileImports?).map (Prod.mk key) := by
  rw [fileImports, keys, List.filterMap_map]
  refine List.filterMap_congr fun entry stored => ?_
  rw [Function.comp_apply, node?_of_mem_entries distinct stored]
  obtain ⟨key, n⟩ := entry
  cases n <;> rfl

/-- A graph that has grown by placeholders only has the files that it had. -/
theorem fileImports_congr {g h : DependencyGraph} (distinct : h.keys.Nodup)
    (grown : ∃ new, h.keys = g.keys ++ new)
    (same : ∀ key, (h.node? key).filter Node.isSolid = (g.node? key).filter Node.isSolid) :
    h.fileImports = g.fileImports := by
  obtain ⟨new, keys⟩ := grown
  rw [fileImports_eq_filterMap_keys distinct]
  rw [keys, List.nodup_append] at distinct
  obtain ⟨g_keys, -, apart⟩ := distinct
  have nothing : (new.filterMap fun key =>
      (((g.node? key).filter Node.isSolid).bind fileImports?).map (Prod.mk key)) = [] := by
    rw [List.filterMap_eq_nil_iff]
    intro key listed
    have absent : g.node? key = none :=
      node?_eq_none_iff.mpr fun known => apart key known key listed rfl
    rw [absent]
    rfl
  simp only [same]
  rw [keys, List.filterMap_append, nothing, List.append_nil, fileImports_eq_filterMap_keys g_keys]

/-- The edges of a build know at most a line. -/
theorem Sound.isDrawn_of_mem_buildAdditions {g : DependencyGraph} (sound : g.Sound)
    {scope : InternalScope} {sources : List SourceFile} {e : Edge}
    (made : .edge e ∈ g.buildAdditions scope sources) : e.IsDrawn := by
  rcases List.mem_append.mp made with added | linked
  · obtain ⟨source, -, put⟩ := List.mem_flatMap.mp added
    rcases SourceFile.mem_additions_iff.mp put with node | ⟨d, -, node | edge⟩
    · cases node
    · cases node
    · cases edge
      exact .inl rfl
  · obtain ⟨key, n, -, r, -, put⟩ := (sound.addSources sources).2.mem_linkAdditions_iff.mp linked
    rcases ImportRecord.mem_linkAdditions_iff.mp put with node | edge
    · cases node
    · cases edge
      exact Edge.isDrawn_link key r

/-- A second build of the same files makes the additions of the first. -/
theorem Sound.buildAdditions_again {g : DependencyGraph} (sound : g.Sound) (scope : InternalScope)
    (sources : List SourceFile) :
    (g.applyAll (g.buildAdditions scope sources)).buildAdditions scope sources =
      g.buildAdditions scope sources := by
  have files : ((g.applyAll (g.buildAdditions scope sources)).withSources sources).fileImports =
      (g.withSources sources).fileImports := by
    refine fileImports_congr ?_ ?_ fun key => ?_
    · exact ((sound.build scope sources).2.addSources sources).2.keys_nodup
    · rw [applyAll_buildAdditions, withSources, ← applyAll_append]
      exact exists_keys_applyAll _ _
    · have again : (g.withSources sources).node? key =
          (nodesAt key (sources.flatMap SourceFile.additions)).foldl Node.settle
            ((g.withSources sources).node? key) := by
        rw [withSources, node?_applyAll, Node.foldl_settle_again]
      conv_rhs => rw [again]
      rw [applyAll_buildAdditions, withSources, node?_applyAll, Node.filter_foldl_settle,
        node?_applyAll, Node.filter_foldl_settle, filter_isSolid_nodesAt_linkAdditions,
        List.foldl_nil, Node.filter_foldl_settle]
  rw [buildAdditions, buildAdditions, linkAdditions, linkAdditions]
  exact congrArg (fun imports => sources.flatMap SourceFile.additions ++
    imports.flatMap fun file =>
      (scope.internalRecords file.2).flatMap (ImportRecord.linkAdditions file.1)) files

theorem Sound.buildEach {g : DependencyGraph} (sound : g.Sound) (scope : InternalScope)
    (batches : List (List SourceFile)) :
    ∃ built, g.buildEach scope batches = .ok built ∧ built.Sound := by
  induction batches generalizing g with
  | nil => exact ⟨g, rfl, sound⟩
  | cons batch rest ih =>
      obtain ⟨once, still⟩ := sound.build scope batch
      obtain ⟨built, later, builtSound⟩ := ih still
      refine ⟨built, ?_, builtSound⟩
      rw [DependencyGraph.buildEach, List.foldlM_cons, once]
      exact later

end DependencyGraph

open DependencyGraph in
/-- **Building again changes nothing.** Whatever builds a graph has seen, and whatever the files of
the last one are, building these files a second time leaves the nodes and the edges as they are, in
their order and with all that they hold. -/
theorem build_buildEach_concat (scope : InternalScope) (earlier : List (List SourceFile))
    (sources : List SourceFile) :
    ∃ g, buildEach scope {} (earlier ++ [sources]) = .ok g ∧ g.build scope sources = .ok g := by
  obtain ⟨before, built, sound⟩ := sound_empty.buildEach scope earlier
  obtain ⟨once, still⟩ := sound.build scope sources
  refine ⟨before.applyAll (before.buildAdditions scope sources), ?_, ?_⟩
  · rw [buildEach] at built ⊢
    rw [List.foldlM_append, built]
    simp only [List.foldlM_cons, List.foldlM_nil, bind_pure]
    exact once
  · rw [(still.build scope sources).1, sound.buildAdditions_again,
      sound.applyAll_applyAll fun e => sound.isDrawn_of_mem_buildAdditions]

end SourceAtlas.Graph
