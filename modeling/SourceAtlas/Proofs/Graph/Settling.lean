/-
# What the nodes under one key settle to

Of the nodes that were put under a key, the placeholders never matter to the others: the first node
that is no placeholder takes the key, and what it becomes depends on the later nodes that are none
either. Only where every node is a placeholder does a placeholder remain. It bears the name of the
first of them, and it is broken if they all are.

Between two ends the last import decides, whatever was drawn there before.
-/

import SourceAtlas.Proofs.Graph.History

namespace SourceAtlas.Graph

namespace Node

/-- Whether a node is anything but a placeholder. -/
def isSolid (n : Node) : Bool := n.kind != .module

theorem isSolid_eq_false_iff {n : Node} : n.isSolid = false ↔ ∃ m, n = .module m := by
  cases n <;> simp [isSolid, kind]

/-- A placeholder gives way, and anything else keeps its variant. -/
theorem kind_absorb (old new : Node) :
    (old.absorb new).kind = if old.isSolid then old.kind else new.kind := by
  cases old <;> cases new <;> rfl

theorem isSolid_absorb (old new : Node) :
    (old.absorb new).isSolid = (old.isSolid || new.isSolid) := by
  cases old <;> cases new <;> rfl

theorem absorb_of_not_isSolid {old new : Node} (solid : old.isSolid = true)
    (loose : new.isSolid = false) : old.absorb new = old := by
  cases old <;> cases new <;> simp_all [isSolid, kind, absorb, merge?]

theorem absorb_of_isSolid {old new : Node} (loose : old.isSolid = false)
    (solid : new.isSolid = true) : old.absorb new = new := by
  cases old <;> cases new <;> simp_all [isSolid, kind, absorb, merge?]

/-- A file is not changed by anything but another file. -/
theorem file_absorb {n : FileNode} {new : Node} (other : new.kind ≠ .file) :
    (Node.file n).absorb new = .file n := by
  cases new <;> simp_all [kind, absorb, merge?]

theorem uniqueId_absorb {old new : Node} (same : old.uniqueId = new.uniqueId) :
    (old.absorb new).uniqueId = old.uniqueId := by
  cases old <;> cases new <;> first | rfl | exact same.symm

theorem filter_settle (start : Option Node) (new : Node) :
    (settle start new).filter isSolid =
      if new.isSolid then settle (start.filter isSolid) new else start.filter isSolid := by
  cases start with
  | none => cases solid : new.isSolid <;> simp [settle, solid]
  | some old =>
      have either := isSolid_absorb old new
      cases newSolid : new.isSolid with
      | false =>
          cases oldSolid : old.isSolid with
          | false => simp [settle, Option.filter, either, oldSolid, newSolid]
          | true => simp [settle, Option.filter, absorb_of_not_isSolid oldSolid newSolid, oldSolid]
      | true =>
          cases oldSolid : old.isSolid with
          | false =>
              simp [settle, Option.filter, absorb_of_isSolid oldSolid newSolid, newSolid, oldSolid]
          | true => simp [settle, Option.filter, either, oldSolid]

/-- **Placeholders never matter to anything else.** Leaving them out of a history leaves out only
what is one afterwards. -/
theorem filter_foldl_settle (start : Option Node) (nodes : List Node) :
    (nodes.foldl settle start).filter isSolid =
      (nodes.filter isSolid).foldl settle (start.filter isSolid) := by
  induction nodes generalizing start with
  | nil => rfl
  | cons n rest ih =>
      rw [List.foldl_cons, ih, filter_settle]
      cases solid : n.isSolid <;> simp [solid]

/-- A file stays as it is while no other file is put under its key. -/
theorem foldl_settle_file {n : FileNode} {nodes : List Node}
    (others : ∀ new ∈ nodes, new.kind ≠ .file) :
    nodes.foldl settle (some (.file n)) = some (.file n) := by
  induction nodes with
  | nil => rfl
  | cons new rest ih =>
      rw [List.foldl_cons, settle, file_absorb (others new List.mem_cons_self)]
      exact ih fun later put => others later (List.mem_cons_of_mem _ put)

/-- The variant that remains is that of a node that was there. -/
theorem exists_mem_kind_eq_of_foldl_settle {start : Option Node} {nodes : List Node} {n : Node}
    (found : nodes.foldl settle start = some n) :
    (∃ old, start = some old ∧ old.kind = n.kind) ∨ ∃ m ∈ nodes, m.kind = n.kind := by
  induction nodes generalizing start with
  | nil => exact .inl ⟨n, found, rfl⟩
  | cons new rest ih =>
      rcases ih found with ⟨settled, settles, same⟩ | ⟨m, later, same⟩
      · cases start with
        | none =>
            cases settles
            exact .inr ⟨new, List.mem_cons_self, same⟩
        | some old =>
            cases settles
            rw [kind_absorb] at same
            split at same
            · exact .inl ⟨old, rfl, same⟩
            · exact .inr ⟨new, List.mem_cons_self, same⟩
      · exact .inr ⟨m, List.mem_cons_of_mem _ later, same⟩

/-- The key of a node is kept by everything that is put under it. -/
theorem uniqueId_foldl_settle {key : String} {start : Option Node} {nodes : List Node}
    (before : ∀ n, start = some n → n.uniqueId = key) (put : ∀ n ∈ nodes, n.uniqueId = key)
    {n : Node} (found : nodes.foldl settle start = some n) : n.uniqueId = key := by
  induction nodes generalizing start with
  | nil => exact before n found
  | cons new rest ih =>
      have newId : new.uniqueId = key := put new List.mem_cons_self
      refine ih ?_ (fun later h => put later (List.mem_cons_of_mem _ h)) found
      intro settled settles
      cases start with
      | none =>
          cases settles
          exact newId
      | some old =>
          cases settles
          have oldId : old.uniqueId = key := before old rfl
          rw [uniqueId_absorb (oldId.trans newId.symm), oldId]

end Node

/-- Placeholders that join a placeholder keep its name and can only mend it. -/
theorem foldl_settle_placeholders_of_module (m : ModuleNode) (records : List ImportRecord) :
    (records.map ImportRecord.placeholder).foldl Node.settle (some (.module m)) =
      some (.module
        { m with
          internal := m.internal || !records.isEmpty
          broken := m.broken && records.all ImportRecord.isBroken }) := by
  induction records generalizing m with
  | nil => simp
  | cons next rest ih =>
      have merged : Node.settle (some (.module m)) next.placeholder =
          some (.module { m with internal := true, broken := m.broken && next.isBroken }) := by
        simp [Node.settle, Node.absorb, Node.merge?, ModuleNode.merge, ImportRecord.placeholder]
      rw [List.map_cons, List.foldl_cons, merged, ih]
      simp [Bool.and_assoc]

/-- Placeholders under one key leave one that bears the first name and is broken if all are. -/
theorem foldl_settle_placeholders (r : ImportRecord) (rest : List ImportRecord) :
    ((r :: rest).map ImportRecord.placeholder).foldl Node.settle none =
      some (.module
        { name := r.specifier, path := r.targetKey, internal := true
          broken := (r :: rest).all ImportRecord.isBroken }) := by
  rw [List.map_cons, List.foldl_cons]
  exact foldl_settle_placeholders_of_module _ rest

/-- The edge from a file to what it declares. -/
def Node.containment (fileKey : String) (declaration : Node) : Edge :=
  { source := fileKey, target := declaration.uniqueId, kind := .contains }

/-- The edge from a file to what a record imports. -/
def ImportRecord.link (fileKey : String) (r : ImportRecord) : Edge :=
  { source := fileKey, target := r.targetKey, kind := .imports
    attributes := [("line", .int r.line)] }

/-- An edge that knows nothing besides its kind but, perhaps, a line. -/
def Edge.IsDrawn (e : Edge) : Prop :=
  e.attributes = [] ∨ ∃ line, e.attributes = [("line", line)]

theorem Edge.isDrawn_link (fileKey : String) (r : ImportRecord) : (r.link fileKey).IsDrawn :=
  .inr ⟨_, rfl⟩

theorem Edge.IsDrawn.overwrite {old new : Edge} (oldDrawn : old.IsDrawn) (newDrawn : new.IsDrawn) :
    (DependencyGraph.Edge.overwrite old new).IsDrawn := by
  rcases oldDrawn with old_none | ⟨oldLine, old_line⟩ <;>
    rcases newDrawn with new_none | ⟨newLine, new_line⟩ <;>
      simp_all [IsDrawn, DependencyGraph.Edge.overwrite, DependencyGraph.setAttribute]

/-- An import replaces whatever a build drew between its ends. -/
theorem Edge.IsDrawn.overwrite_link {old : Edge} (drawn : old.IsDrawn) {fileKey : String}
    {r : ImportRecord} (ends : old.ends = (r.link fileKey).ends) :
    DependencyGraph.Edge.overwrite old (r.link fileKey) = r.link fileKey := by
  obtain ⟨source, target, kind, attributes⟩ := old
  simp only [Edge.ends, ImportRecord.link, Prod.mk.injEq] at ends
  obtain ⟨rfl, rfl⟩ := ends
  rcases drawn with none | ⟨line, one⟩
  · simp_all [DependencyGraph.Edge.overwrite, ImportRecord.link, DependencyGraph.setAttribute]
  · simp_all [DependencyGraph.Edge.overwrite, ImportRecord.link, DependencyGraph.setAttribute]

theorem Edge.foldl_settle_isDrawn {ends : String × String} {edges : List Edge}
    {start : Option Edge} (before : ∀ e, start = some e → e.IsDrawn ∧ e.ends = ends)
    (put : ∀ e ∈ edges, e.IsDrawn ∧ e.ends = ends) {e : Edge}
    (found : edges.foldl Edge.settle start = some e) : e.IsDrawn ∧ e.ends = ends := by
  induction edges generalizing start with
  | nil => exact before e found
  | cons new rest ih =>
      have new_put := put new List.mem_cons_self
      refine ih ?_ (fun later h => put later (List.mem_cons_of_mem _ h)) found
      intro settled settles
      cases start with
      | none =>
          cases settles
          exact new_put
      | some old =>
          cases settles
          have old_put := before old rfl
          exact ⟨old_put.1.overwrite new_put.1, old_put.2⟩

/-- **The last import decides.** Whatever a build drew between two ends before, a link drawn last
is the edge that stands there. -/
theorem Edge.foldl_settle_concat_link {start : Option Edge} {edges : List Edge} {fileKey : String}
    {r : ImportRecord} (before : ∀ e, start = some e → e.IsDrawn ∧ e.ends = (r.link fileKey).ends)
    (put : ∀ e ∈ edges, e.IsDrawn ∧ e.ends = (r.link fileKey).ends) :
    (edges ++ [r.link fileKey]).foldl Edge.settle start = some (r.link fileKey) := by
  rw [List.foldl_append, List.foldl_cons, List.foldl_nil]
  cases found : edges.foldl Edge.settle start with
  | none => rfl
  | some old =>
      have drawn := Edge.foldl_settle_isDrawn before put found
      rw [Edge.settle, drawn.1.overwrite_link drawn.2]

/-- What is put again and again settles to itself if putting it once more changes nothing. -/
theorem foldl_settle_same {α : Type} {settle : Option α → α → Option α} {a : α}
    (first : settle none a = some a) (again : settle (some a) a = some a) {items : List α}
    (put : ∀ new ∈ items, new = a) (some_put : items ≠ []) :
    items.foldl settle none = some a := by
  have later : ∀ rest : List α, (∀ new ∈ rest, new = a) →
      rest.foldl settle (some a) = some a := by
    intro rest same
    induction rest with
    | nil => rfl
    | cons new rest ih =>
        rw [List.foldl_cons, same new List.mem_cons_self, again]
        exact ih fun x h => same x (List.mem_cons_of_mem _ h)
  cases items with
  | nil => exact absurd rfl some_put
  | cons new rest =>
      rw [List.foldl_cons, put new List.mem_cons_self, first]
      exact later rest fun x h => put x (List.mem_cons_of_mem _ h)

/-- Drawing one and the same containment again changes nothing. -/
theorem Edge.foldl_settle_containments {edges : List Edge} {e : Edge} (plain : e.attributes = [])
    (put : ∀ new ∈ edges, new = e) (some_put : edges ≠ []) :
    edges.foldl Edge.settle none = some e := by
  refine foldl_settle_same rfl ?_ put some_put
  obtain ⟨source, target, kind, attributes⟩ := e
  subst plain
  rfl

end SourceAtlas.Graph
