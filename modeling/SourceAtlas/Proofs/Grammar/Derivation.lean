/-
# Trees are made of what the grammar allows

Whatever the parser has on its stack was read from the text by the productions of the language: a
token that stands in the text, or a phrase over fragments that one of its productions reads. This is
kept by everything the parser does with its readings, so the tree of a text is made of such
fragments only.
-/

import SourceAtlas.Grammar.Parse
import SourceAtlas.Proofs.Grammar.Stacks

namespace SourceAtlas.Grammar

open ItemTable (ItemAt)

namespace Task

/-- A token may be read as a symbol: as what it is, or as a name if it is a keyword. -/
def ReadAs (task : Task) (token : Token) (symbol : Nat) : Prop :=
  symbol = token.symbol ∨ token.isKeyword = true ∧ symbol = task.tables.nameSymbol

/-- A token that stands in the text. -/
def Stands (task : Task) (token : Token) : Prop :=
  ∃ state i, task.tables.token? task.source task.typed state i = some token

/-- A production reads some fragments. Only what is shown of them is known of the production that is
written down. -/
structure Reads (task : Task) (item : Item) (written : Production) (fragments : List Fragment) :
    Prop where
  production : ∃ p ∈ task.tables.productions.toList, item.head = p.head ∧
    written.steps.map Step.look = p.steps.map Step.look ∧
    p.steps.map Step.symbol = (Stack.solid fragments).map Fragment.symbol
  first : ∃ first rest, fragments = first :: rest ∧ first.extra = false

/-- The fragments that can come up when a text is read. -/
inductive Derived (task : Task) : Fragment → Prop where
  | token {token : Token} {symbol lead : Nat} {extra : Bool} : task.Stands token →
    task.ReadAs token symbol → Derived task (Fragment.ofToken symbol lead token.span extra)
  | phrase {item : Item} {written : Production} {children : List Fragment} :
    task.Reads item written children → (∀ f ∈ children, Derived task f) →
    Derived task (task.tables.phraseFragment task.source item written children)

/-- The nodes of a whole text that is made of some fragments. -/
def wholeParts (task : Task) (fragments : List Fragment) : Parts :=
  fragments.foldr (fun f rest =>
    Parts.both (if f.extra then task.tables.asideParts task.source f else f.parts) rest) .none

/-- What a parser knows is in order: its machine is sound, every fragment on its stack can be
derived, every reading has its top on the stack, and a finished text is made of derived
fragments. -/
structure InOrder (task : Task) (p : Progress) : Prop where
  sound : p.machine.Sound task.tables
  fits : p.stack.Fits task.tables p.machine task.Derived
  nonempty : 0 < p.stack.size
  readings : ∀ r ∈ p.readings.toList, r.node < p.stack.size
  finished : ∀ {best : Int × Parts}, p.finished = some best →
    ∃ fragments, (∀ f ∈ fragments, task.Derived f) ∧ best.2 = task.wholeParts fragments

variable {task : Task} {p : Progress}

theorem InOrder.node_lt (order : task.InOrder p) (v : Nat) : (reading p v).node < p.stack.size := by
  rw [reading, Array.getD_eq_getD_getElem?]
  cases found : p.readings[v]? with
  | none => exact order.nonempty
  | some r => exact order.readings r (Array.mem_toList_iff.mpr (Array.mem_of_getElem? found))

/-- Readings can be changed as long as they stand on the stack. -/
theorem InOrder.setReadings (order : task.InOrder p) {readings : Array Reading}
    (inside : ∀ r ∈ readings.toList, r.node < p.stack.size) :
    task.InOrder { p with readings } :=
  { order with readings := inside }

theorem InOrder.of_subset (order : task.InOrder p) {readings : Array Reading}
    (subset : ∀ r ∈ readings.toList, r ∈ p.readings.toList) : task.InOrder { p with readings } :=
  order.setReadings fun r listed => order.readings r (subset r listed)

/-- One reading is changed. -/
theorem forall_mem_modify {readings : Array Reading} {v : Nat} {f : Reading → Reading} {bound : Nat}
    (inside : ∀ r ∈ readings.toList, r.node < bound)
    (changed : ∀ r ∈ readings.toList, (f r).node < bound) :
    ∀ r ∈ (readings.modify v f).toList, r.node < bound := by
  intro r listed
  obtain ⟨k, stored⟩ := Array.mem_iff_getElem?.mp (Array.mem_toList_iff.mp listed)
  rw [Array.getElem?_modify] at stored
  split at stored
  · obtain ⟨old, there, rfl⟩ := Option.map_eq_some_iff.mp stored
    exact changed old (Array.mem_toList_iff.mpr (Array.mem_of_getElem? there))
  · exact inside r (Array.mem_toList_iff.mpr (Array.mem_of_getElem? stored))

theorem InOrder.stop (order : task.InOrder p) (v : Nat) : task.InOrder (stop p v) :=
  order.setReadings (forall_mem_modify order.readings order.readings)

/-- A reading is left in its state while others go on. -/
structure Keeps (v : Nat) (p after : Progress) : Prop where
  machine : p.machine.Extends after.machine
  stack : p.stack.size ≤ after.stack.size
  inside : v < after.readings.size
  top : (top after v).state = (top p v).state

theorem Keeps.refl {v : Nat} (inside : v < p.readings.size) : Keeps v p p :=
  ⟨.refl _, Nat.le_refl _, inside, rfl⟩

theorem Keeps.trans {v : Nat} {after later : Progress} (early : Keeps v p after)
    (late : Keeps v after later) : Keeps v p later :=
  ⟨early.machine.trans late.machine, Nat.le_trans early.stack late.stack, late.inside,
    late.top.trans early.top⟩

theorem InOrder.put (order : task.InOrder p) {v : Nat} {fragment : Fragment}
    (derived : task.Derived fragment) {state : Nat} (bound : state < p.machine.states.size)
    (leads : Stack.Leads task.tables p.machine (top p v).state fragment state) :
    task.InOrder (put p v fragment state) := by
  have size : p.stack.size < (p.stack.push (reading p v).node fragment state).2.size := by
    rw [Stack.size_push]
    exact Nat.lt_succ_self _
  refine ⟨order.sound, order.fits.push (order.node_lt v) derived bound leads,
    Nat.lt_trans order.nonempty size, ?_, order.finished⟩
  apply forall_mem_modify
  · intro r listed
    exact Nat.lt_trans (order.readings r listed) size
  · intro r _
    exact size

theorem size_readings_put (p : Progress) (v : Nat) (fragment : Fragment) (state : Nat) :
    (put p v fragment state).readings.size = p.readings.size :=
  Array.size_modify

theorem top_put_self {v : Nat} (inside : v < p.readings.size) (fragment : Fragment) (state : Nat) :
    (top (put p v fragment state) v).state = state := by
  have node : (reading (put p v fragment state) v).node = p.stack.size := by
    rw [reading, put, Array.getD_eq_getD_getElem?, Array.getElem?_modify, if_pos rfl,
      Array.getElem?_eq_getElem inside]
    rfl
  rw [top, node]
  exact congrArg StackNode.state (Stack.nodeAt_push_self _ _ _ _)

theorem InOrder.keeps_put (order : task.InOrder p) {v other : Nat} (inside : v < p.readings.size)
    (apart : other ≠ v) (fragment : Fragment) (state : Nat) :
    Keeps v p (Task.put p other fragment state) := by
  have same : reading (Task.put p other fragment state) v = reading p v := by
    rw [reading, Task.put, Array.getD_eq_getD_getElem?, Array.getElem?_modify, if_neg apart,
      reading, Array.getD_eq_getD_getElem?]
  refine ⟨.refl _, ?_, ?_, ?_⟩
  · show p.stack.size ≤ (p.stack.push (reading p other).node fragment state).2.size
    rw [Stack.size_push]
    exact Nat.le_succ _
  · rw [size_readings_put]
    exact inside
  · rw [Task.top, same]
    exact congrArg StackNode.state (Stack.nodeAt_push_of_lt (order.node_lt v))

/-- What may stand anywhere can be put on a reading without changing its state. -/
theorem InOrder.putExtras (order : task.InOrder p) {place : Nat} (inside : place < p.readings.size)
    {state : Nat} (here : (top p place).state = state) {fragments : List Fragment}
    (all : ∀ f ∈ fragments, task.Derived f ∧ f.extra = true) {v : Nat} (before : v < place) :
    task.InOrder (fragments.foldl (fun p f => Task.put p place f state) p) ∧
      Keeps v p (fragments.foldl (fun p f => Task.put p place f state) p) := by
  induction fragments generalizing p with
  | nil => exact ⟨order, .refl (Nat.lt_trans before inside)⟩
  | cons f rest ih =>
      obtain ⟨derived, extra⟩ := all f List.mem_cons_self
      have bound : state < p.machine.states.size := by
        rw [← here]
        exact order.fits.state _
      have after : task.InOrder (Task.put p place f state) := by
        apply order.put derived bound
        rw [Stack.Leads, if_pos extra]
        exact here
      have kept := order.keeps_put (Nat.lt_trans before inside) (Nat.ne_of_gt before) f state
      obtain ⟨last, keptLast⟩ := ih after
        (by rw [size_readings_put]; exact inside) (top_put_self inside f state)
        fun g later => all g (List.mem_cons_of_mem _ later)
      exact ⟨last, kept.trans keptLast⟩

theorem state_eq_of_meet {into other : Nat} (met : meet p into other = true) :
    (top p into).state = (top p other).state := by
  rw [meet, Bool.and_eq_true] at met
  exact Stack.state_eq_of_sameNode met.2

/-- A reading can be joined into another one that it has met. -/
theorem InOrder.merge (order : task.InOrder p) {into other : Nat} (met : meet p into other = true) :
    task.InOrder (merge p into other) ∧
      p.stack.SameStates (Task.merge p into other).stack := by
  obtain ⟨fits, same⟩ := order.fits.join (state_eq_of_meet met)
  refine ⟨⟨order.sound, fits, ?_, fun r listed => ?_, order.finished⟩, same⟩
  · show 0 < (p.stack.join (reading p into).node (reading p other).node).size
    rw [← same.size]
    exact order.nonempty
  · show r.node < (p.stack.join (reading p into).node (reading p other).node).size
    rw [← same.size]
    apply order.readings
    rw [Task.merge, Array.toList_eraseIdxIfInBounds] at listed
    exact List.mem_of_mem_eraseIdx listed

/-- Dropping a later reading leaves a reading as it is. -/
theorem reading_eraseIdx {readings : Array Reading} {v other : Nat} (before : v < other) :
    (readings.eraseIdxIfInBounds other).getD v default = readings.getD v default := by
  rw [Array.getD_eq_getD_getElem?, ← Array.getElem?_toList, Array.toList_eraseIdxIfInBounds,
    List.getElem?_eraseIdx_of_lt before, Array.getElem?_toList, Array.getD_eq_getD_getElem?]

theorem lt_size_eraseIdx {readings : Array Reading} {v other : Nat} (before : v < other)
    (inside : v < readings.size) : v < (readings.eraseIdxIfInBounds other).size := by
  rw [← Array.length_toList, Array.toList_eraseIdxIfInBounds, List.length_eraseIdx,
    Array.length_toList]
  split
  · omega
  · exact inside

theorem InOrder.keeps_merge (order : task.InOrder p) {into other : Nat}
    (met : meet p into other = true) {v : Nat} (inside : v < p.readings.size)
    (before : v < other) : Keeps v p (Task.merge p into other) := by
  obtain ⟨-, same⟩ := order.merge met
  refine ⟨.refl _, Nat.le_of_eq same.size, lt_size_eraseIdx before inside, ?_⟩
  have kept : reading (Task.merge p into other) v = reading p v := reading_eraseIdx before
  rw [Task.top, kept]
  exact (same.state _).symm

/-! ## Ending a phrase -/

theorem splitTrailing_append (fragments : List Fragment) :
    (splitTrailing fragments).1 ++ (splitTrailing fragments).2 = fragments := by
  have whole := congrArg List.reverse
    (List.takeWhile_append_dropWhile (p := Fragment.extra) (l := fragments.reverse))
  rw [List.reverse_append, List.reverse_reverse] at whole
  rw [splitTrailing]
  dsimp only
  generalize (fragments.reverse.takeWhile Fragment.extra).reverse = trailing at whole ⊢
  rw [← whole, List.length_append, Nat.add_sub_cancel, List.take_left]

theorem extra_of_mem_splitTrailing {fragments : List Fragment} {f : Fragment}
    (listed : f ∈ (splitTrailing fragments).2) : f.extra = true :=
  List.all_eq_true.mp List.all_takeWhile f (List.mem_reverse.mp listed)

/-- What trails behind a phrase is no part of it. -/
theorem Reads.splitTrailing {item : Item} {written : Production} {fragments : List Fragment}
    (reads : task.Reads item written fragments) :
    task.Reads item written (splitTrailing fragments).1 := by
  have whole := splitTrailing_append fragments
  have extras {f : Fragment} := @extra_of_mem_splitTrailing fragments f
  generalize Task.splitTrailing fragments = halves at whole extras
  have none : Stack.solid halves.2 = [] := by
    apply List.filter_eq_nil_iff.mpr
    intro f listed
    rw [extras listed]
    exact Bool.false_ne_true
  have solid : Stack.solid fragments = Stack.solid halves.1 := by
    rw [← whole, Stack.solid, List.filter_append]
    exact (congrArg (Stack.solid halves.1 ++ ·) none).trans (List.append_nil _)
  obtain ⟨first, rest, split, inside⟩ := reads.first
  refine ⟨solid ▸ reads.production, ?_⟩
  rw [split] at whole
  cases same : halves.1 with
  | nil =>
      rw [same, List.nil_append] at whole
      rw [extras (whole ▸ List.mem_cons_self)] at inside
      cases inside
  | cons head others =>
      rw [same] at whole
      cases whole
      exact ⟨first, others, rfl, inside⟩

/-- The heaviest phrase is one of the phrases over the ways. -/
theorem of_heaviest {item : Item} {ways : List (List Fragment)} {phrase : Fragment}
    {trailing : List Fragment} (found : task.heaviest item ways = some (phrase, trailing)) :
    ∃ way ∈ ways, trailing = (splitTrailing way).2 ∧
      phrase = task.tables.phraseFragment task.source item
        (task.tables.productions.getD item.production default) (splitTrailing way).1 := by
  rw [heaviest] at found
  dsimp only at found
  generalize phrasesAre : ways.map _ = phrases at found
  suffices (phrase, trailing) ∈ phrases by
    rw [← phrasesAre] at this
    obtain ⟨way, listed, same⟩ := List.mem_map.mp this
    cases same
    exact ⟨way, listed, rfl, rfl⟩
  refine mem_of_foldl_best (fun best next => ?_) found
  split
  · exact .inl rfl
  · split
    · exact .inl rfl
    · exact .inr rfl

/-- A new reading starts at a node of the stack. -/
theorem InOrder.pushReading (order : task.InOrder p) {node : Nat} (inside : node < p.stack.size) :
    task.InOrder { p with readings := p.readings.push ⟨node, true⟩ } := by
  apply order.setReadings
  intro r listed
  rw [Array.toList_push, List.mem_append, List.mem_singleton] at listed
  rcases listed with known | rfl
  · exact order.readings r known
  · exact inside

theorem keeps_pushReading {v : Nat} (inside : v < p.readings.size) (r : Reading) :
    Keeps v p { p with readings := p.readings.push r } := by
  refine ⟨.refl _, Nat.le_refl _, ?_, ?_⟩
  · rw [Array.size_push]
    exact Nat.lt_succ_of_lt inside
  · have same : reading { p with readings := p.readings.push r } v = reading p v := by
      rw [reading, Array.getD_eq_getD_getElem?, Array.getElem?_push_lt inside, reading,
        Array.getD_eq_getD_getElem?, Array.getElem?_eq_getElem inside]
    rw [top, same]
    rfl

theorem InOrder.setMachine (order : task.InOrder p) {machine : Machine}
    (sound : machine.Sound task.tables) (grown : p.machine.Extends machine) :
    task.InOrder { p with machine } :=
  { order with sound, fits := order.fits.mono grown }

theorem keeps_setMachine {v : Nat} (inside : v < p.readings.size) {machine : Machine}
    (grown : p.machine.Extends machine) : Keeps v p { p with machine } :=
  ⟨grown, Nat.le_refl _, inside, rfl⟩

/-- A new reading takes up a phrase, and then what trails it. -/
theorem InOrder.branch (order : task.InOrder p) {v : Nat} (inside : v < p.readings.size)
    {node : Nat} (below : node < p.stack.size) {state : Nat} {machine : Machine}
    (sound : machine.Sound task.tables) (grown : p.machine.Extends machine)
    (bound : state < machine.states.size) {phrase : Fragment} (derived : task.Derived phrase)
    (solid : phrase.extra = false)
    (kernel : (machine.stateAt state).kernel =
      task.tables.kernelAfter (p.machine.stateAt (p.stack.nodeAt node).state) phrase.symbol)
    {trailing : List Fragment} (extras : ∀ f ∈ trailing, task.Derived f ∧ f.extra = true) :
    let start : Progress := { p with machine, readings := p.readings.push ⟨node, true⟩ }
    let after := (phrase :: trailing).foldl (fun q f => Task.put q p.readings.size f state) start
    task.InOrder after ∧ Keeps v p after := by
  intro start
  have begun : task.InOrder start := (order.setMachine sound grown).pushReading below
  have kept : Keeps v p start :=
    (keeps_setMachine inside grown).trans
      (@keeps_pushReading { p with machine } v inside ⟨node, true⟩)
  have place : p.readings.size < start.readings.size := by
    rw [show start.readings = p.readings.push ⟨node, true⟩ from rfl, Array.size_push]
    exact Nat.lt_succ_self _
  have here : top start p.readings.size = p.stack.nodeAt node := by
    rw [top, reading, show start.readings = p.readings.push ⟨node, true⟩ from rfl,
      Array.getD_eq_getD_getElem?, Array.getElem?_push_size]
    rfl
  have leads : Stack.Leads task.tables start.machine (top start p.readings.size).state phrase
      state := by
    rw [Stack.Leads, solid, if_neg Bool.false_ne_true, here,
      show start.machine = machine from rfl, grown.stateAt (order.fits.state node)]
    exact kernel
  have taken := begun.put derived bound leads
  have keptThen := begun.keeps_put kept.inside (Nat.ne_of_gt inside) phrase state
  obtain ⟨last, keptLast⟩ := taken.putExtras (by rw [size_readings_put]; exact place)
    (top_put_self place phrase state) extras inside
  exact ⟨last, kept.trans (keptThen.trans keptLast)⟩

/-- What a way down to a node has to be for a phrase to end over it. -/
structure WayReads (task : Task) (item : Item) (p : Progress) (node : Nat)
    (fragments : List Fragment) : Prop where
  below : node < p.stack.size
  reads : task.Reads item (task.tables.productions.getD item.production default) fragments
  derived : ∀ f ∈ fragments, task.Derived f

theorem WayReads.mono {item : Item} {node : Nat} {fragments : List Fragment}
    (reads : task.WayReads item p node fragments) {after : Progress}
    (grown : p.stack.size ≤ after.stack.size) : task.WayReads item after node fragments :=
  { reads with below := Nat.lt_of_lt_of_le reads.below grown }

/-- A phrase that ends over some ways is one that can come up. -/
theorem InOrder.reduceGroup (order : task.InOrder p) {v : Nat} (inside : v < p.readings.size)
    {item : Item} {group : Nat × List (List Fragment)}
    (all : ∀ fragments ∈ group.2, task.WayReads item p group.1 fragments) :
    task.InOrder (task.reduceGroup v item p group) ∧
      Keeps v p (task.reduceGroup v item p group) := by
  rw [Task.reduceGroup]
  dsimp only
  split
  · exact ⟨order, .refl inside⟩
  · split
    · exact ⟨order, .refl inside⟩
    · rename_i phrase trailing found
      obtain ⟨way, listed, rfl, phraseIs⟩ := of_heaviest found
      have reads := all way listed
      have whole := splitTrailing_append way
      have derived : task.Derived phrase := by
        rw [phraseIs]
        apply Derived.phrase reads.reads.splitTrailing
        intro f part
        exact reads.derived f (whole ▸ List.mem_append_left _ part)
      have extras : ∀ f ∈ (splitTrailing way).2, task.Derived f ∧ f.extra = true := by
        intro f part
        exact ⟨reads.derived f (whole ▸ List.mem_append_right _ part),
          extra_of_mem_splitTrailing part⟩
      obtain ⟨sound, grown, bound, kernel⟩ :=
        order.sound.move (order.fits.state group.1) item.head
      obtain ⟨after, kept⟩ := order.branch inside reads.below sound grown bound derived
        (by rw [phraseIs]; rfl) (by rw [phraseIs]; exact kernel) extras
      split
      · rename_i into met
        have meets := (Bool.and_eq_true _ _ ▸ List.find?_some met).2
        exact ⟨(after.merge meets).1, kept.trans (after.keeps_merge meets kept.inside inside)⟩
      · exact ⟨after, kept⟩

section Reduce

variable {table : ItemTable} (source : task.tables.ItemsFrom table)
include source

/-- The ways over as many fragments as an item has read are read by one of its productions. -/
theorem InOrder.wayReads (order : task.InOrder p) {v id : Nat}
    (held : (p.machine.stateAt (top p v).state).Holds id)
    (complete : (task.tables.item id).next = none)
    (part : (task.tables.item id).head ≠ task.tables.whole) {way : Stack.Way}
    (listed : way ∈ (p.stack.waysOver (reading p v).node (task.tables.item id).length).toList) :
    task.WayReads (task.tables.item id) p way.node way.fragments := by
  obtain ⟨between, counted, first⟩ := Stack.of_mem_waysOver listed
  obtain ⟨production, among, symbols, itemAt⟩ :=
    order.fits.exists_production order.sound source between held complete counted
  obtain ⟨item, written, stored, head, writes, ⟨before, steps, looks⟩, -, -⟩ :=
    source.valid.exists_item itemAt
  rw [source.item_eq stored] at part ⊢
  have writtenIs : task.tables.productions.getD item.production default = written := by
    rw [Array.getD_eq_getD_getElem?, ← Array.getElem?_toList, writes, Option.getD_some]
  refine ⟨order.fits.lt_size_of_between between (order.node_lt v), ⟨?_, ?_⟩,
    order.fits.known_of_between between⟩
  · refine ⟨production, among, head, ?_, symbols⟩
    rw [writtenIs, steps, List.append_nil, List.map_reverse, looks, List.map_reverse,
      List.reverse_reverse]
  · rw [head] at part
    cases fragments : way.fragments with
    | nil =>
        rw [fragments] at symbols
        exact absurd (List.map_eq_nil_iff.mp symbols) (source.nonempty production among part)
    | cons f rest => exact ⟨f, rest, rfl, first f (by rw [fragments]; rfl)⟩

/-- Ending a phrase keeps everything in order. -/
theorem InOrder.reduce (order : task.InOrder p) {v id : Nat} (inside : v < p.readings.size)
    (held : (p.machine.stateAt (top p v).state).Holds id)
    (complete : (task.tables.item id).next = none)
    (part : (task.tables.item id).head ≠ task.tables.whole) :
    task.InOrder (task.reduce v (task.tables.item id) p) ∧
      Keeps v p (task.reduce v (task.tables.item id) p) := by
  rw [Task.reduce, ← Array.foldl_toList]
  apply List.foldlRecOn (motive := fun after => task.InOrder after ∧ Keeps v p after)
  · exact ⟨order, .refl inside⟩
  · intro after before group listed
    have all : ∀ fragments ∈ group.2,
        task.WayReads (task.tables.item id) after group.1 fragments := by
      intro fragments among
      obtain ⟨way, found, ending, rfl⟩ := Stack.of_mem_groupWays listed among
      rw [← ending]
      exact (order.wayReads source held complete part found).mono before.2.stack
    obtain ⟨next, kept⟩ := before.1.reduceGroup before.2.inside all
    exact ⟨next, before.2.trans kept⟩

/-! ## Taking a token -/

omit source in
/-- A reading that has come to the end of the text is made of what can come up. -/
theorem InOrder.accept (order : task.InOrder p) (v : Nat) :
    task.InOrder (task.accept v p) ∧ (task.accept v p).machine = p.machine ∧
      (task.accept v p).readings.size = p.readings.size := by
  rw [Task.accept]
  generalize notedIs : Array.foldl _ _ _ = noted
  suffices task.InOrder noted ∧ noted.machine = p.machine ∧ noted.readings = p.readings by
    obtain ⟨fine, machine, readings⟩ := this
    refine ⟨fine.stop v, machine, ?_⟩
    rw [← readings]
    exact Array.size_modify
  rw [← notedIs, ← Array.foldl_toList]
  apply List.foldlRecOn (motive := fun q =>
    task.InOrder q ∧ q.machine = p.machine ∧ q.readings = p.readings) _ _ ⟨order, rfl, rfl⟩
  intro q fine way listed
  obtain ⟨fine, same⟩ := fine
  have derived := order.fits.known_of_between (Stack.between_of_mem_waysToBottom listed)
  have noted (weight : Int) :
      task.InOrder { q with finished := some (weight, task.wholeParts way.fragments) } := by
    refine ⟨fine.sound, fine.fits, fine.nonempty, fine.readings, fun found => ?_⟩
    cases found
    exact ⟨way.fragments, derived, rfl⟩
  dsimp only
  split
  · split
    · exact ⟨noted _, same⟩
    · exact ⟨fine, same⟩
  · exact ⟨noted _, same⟩

/-- What has come of a token so far is in order: the reading has not moved unless the token has been
dealt with, and a fresh reading stands behind it. -/
structure OutcomeInOrder (task : Task) (v state : Nat) (machine : Machine) (o : Outcome) :
    Prop where
  order : task.InOrder o.progress
  inside : v < o.progress.readings.size
  machine : machine.Extends o.progress.machine
  top : o.done = false → (top o.progress v).state = state
  fresh : ∀ {other : Nat}, o.fresh = some other → v < other

/-- Doing one of the things that can be done with a token keeps everything in order. -/
theorem OutcomeInOrder.act {v state symbol : Nat} {token : Token} (stands : task.Stands token)
    (readAs : task.ReadAs token symbol) {machine : Machine} (bound : state < machine.states.size)
    {o : Outcome} (before : task.OutcomeInOrder v state machine o) {action : Action}
    (asked : action ∈ task.tables.actions (machine.stateAt state) symbol) :
    task.OutcomeInOrder v state machine (task.act v state symbol token o action) := by
  rw [Task.act]
  by_cases done : o.done = true
  · rw [if_pos done]
    exact before
  rw [if_neg done]
  have here := before.top (Bool.eq_false_iff.mpr done)
  have known : state < o.progress.machine.states.size :=
    Nat.lt_of_lt_of_le bound before.machine.size
  cases action with
  | shift =>
      -- The state to move to may be new, so the machine grows before the token is put down.
      obtain ⟨sound, grown, into, kernel⟩ := before.order.sound.move known symbol
      refine ⟨?_, ?_, before.machine.trans grown, fun going => (by cases going), before.fresh⟩
      · apply (before.order.setMachine sound grown).put (.token stands readAs) into
        have same := congrArg (task.tables.kernelAfter · symbol) (grown.stateAt known)
        rw [← here] at same kernel ⊢
        exact kernel.trans same.symm
      · rw [size_readings_put]
        exact before.inside
  | skip =>
      refine ⟨before.order.put (.token stands readAs) known here, ?_, before.machine,
        fun going => (by cases going), before.fresh⟩
      rw [size_readings_put]
      exact before.inside
  | accept =>
      obtain ⟨order, machine, size⟩ := before.order.accept v
      exact ⟨order, size ▸ before.inside, machine ▸ before.machine, fun going => (by cases going),
        before.fresh⟩
  | reduce id =>
      obtain ⟨held, complete, part⟩ := Tables.of_reduce_mem_actions asked
      rw [← before.machine.stateAt bound, ← here] at held
      obtain ⟨order, kept⟩ := before.order.reduce source before.inside held complete part
      refine ⟨order, kept.inside, before.machine.trans kept.machine,
        fun _ => kept.top.trans here, fun {other} found => ?_⟩
      dsimp only at found
      split at found
      · cases found
        exact before.inside
      · exact before.fresh found

omit source in
theorem size_readings_stop (p : Progress) (v : Nat) :
    (stop p v).readings.size = p.readings.size :=
  Array.size_modify

omit source in
/-- A fresh reading takes the place of the one from which it came. -/
theorem InOrder.replace (order : task.InOrder p) {v fresh : Nat} (inside : v < p.readings.size)
    (behind : v < fresh) :
    let readings := (p.readings.setIfInBounds v (reading p fresh)).eraseIdxIfInBounds fresh
    task.InOrder { p with readings } ∧ v < readings.size := by
  refine ⟨order.setReadings fun r listed => ?_, ?_⟩
  · rw [Array.toList_eraseIdxIfInBounds] at listed
    have among := List.mem_of_mem_eraseIdx listed
    rw [Array.toList_setIfInBounds] at among
    rcases List.mem_or_eq_of_mem_set among with old | rfl
    · exact order.readings r old
    · exact order.node_lt fresh
  · apply lt_size_eraseIdx behind
    rw [Array.size_setIfInBounds]
    exact inside

/-- All that is done with a token in the state of a reading keeps everything in order. -/
theorem InOrder.outcome (order : task.InOrder p) {v : Nat} (inside : v < p.readings.size)
    {token : Token} (stands : task.Stands token) {symbol : Nat}
    (readAs : task.ReadAs token symbol) :
    let answer := p.machine.actionsAt task.tables (top p v).state symbol
    task.OutcomeInOrder v (top p v).state answer.2
      (answer.1.foldl (task.act v (top p v).state symbol token)
        { progress := { p with machine := answer.2 } }) := by
  intro answer
  have bound := order.fits.state (reading p v).node
  obtain ⟨actions, sound, grown⟩ := order.sound.actionsAt bound symbol
  apply List.foldlRecOn (motive := task.OutcomeInOrder v (top p v).state answer.2)
  · exact ⟨order.setMachine sound grown, inside, .refl _, fun _ => rfl, fun none => by cases none⟩
  · -- The actions were looked up before the first of them was done.
    intro o before action listed
    apply before.act source stands readAs (Nat.lt_of_lt_of_le bound grown.size)
    rw [grown.stateAt bound, ← actions]
    exact listed

/-- Dealing with a token keeps everything in order. -/
theorem InOrder.takeToken {v : Nat} {token : Token} (stands : task.Stands token) (fuel : Nat)
    {symbol : Nat} (readAs : task.ReadAs token symbol) (order : task.InOrder p)
    (inside : v < p.readings.size) :
    task.InOrder (task.takeToken v token fuel symbol p) ∧
      v < (task.takeToken v token fuel symbol p).readings.size := by
  induction fuel generalizing symbol p with
  | zero =>
      rw [Task.takeToken, size_readings_stop]
      exact ⟨order.stop v, inside⟩
  | succ fuel ih =>
      rw [Task.takeToken]
      have outcome := order.outcome source inside stands readAs
      dsimp only at outcome ⊢
      generalize List.foldl _ _ _ = o at outcome ⊢
      split
      · exact ⟨outcome.order, outcome.inside⟩
      · split
        · rename_i fresh found
          obtain ⟨replaced, behind⟩ := outcome.order.replace outcome.inside (outcome.fresh found)
          exact ih readAs replaced behind
        · split
          · -- A keyword that cannot stand here is read once more, as a name.
            rename_i asName
            simp only [Bool.and_eq_true] at asName
            exact ih (.inr ⟨asName.1.1.2, rfl⟩) outcome.order outcome.inside
          · rw [size_readings_stop]
            exact ⟨outcome.order.stop v, outcome.inside⟩

/-- Taking the next token keeps everything in order. -/
theorem InOrder.advance (order : task.InOrder p) {v : Nat} (inside : v < p.readings.size) :
    task.InOrder (task.advance v p) ∧ v < (task.advance v p).readings.size := by
  rw [Task.advance]
  split
  · rw [size_readings_stop]
    exact ⟨order.stop v, inside⟩
  · rename_i token found
    exact order.takeToken source ⟨_, _, found⟩ task.fuel (.inl rfl) inside

theorem InOrder.drive (order : task.InOrder p) {v : Nat} (inside : v < p.readings.size)
    (fuel last : Nat) : task.InOrder (task.drive v fuel last p).2 := by
  induction fuel generalizing p with
  | zero => exact order.stop v
  | succ fuel ih =>
      rw [Task.drive]
      obtain ⟨after, still⟩ := order.advance source inside
      split
      · exact order
      · dsimp only
        split
        · exact after
        · split
          · exact after
          · exact ih after still

theorem InOrder.driveAll (order : task.InOrder p) (fuel v last : Nat) :
    task.InOrder (task.driveAll fuel v last p).2 := by
  induction fuel generalizing p v last with
  | zero => exact order
  | succ fuel ih =>
      rw [Task.driveAll]
      split
      · rename_i inside
        exact ih (order.drive source inside task.fuel last) _ _
      · exact order

omit source in
theorem InOrder.joinReadings (order : task.InOrder p) (fuel v : Nat) :
    task.InOrder (joinReadings fuel v p) := by
  induction fuel generalizing p v with
  | zero => exact order
  | succ fuel ih =>
      rw [Task.joinReadings]
      split
      · split
        · rename_i into met
          have meets : meet p into v = true := by simpa using List.find?_some met
          exact ih (order.merge meets).1 _
        · exact ih order _
      · exact order

omit source in
theorem InOrder.condense (order : task.InOrder p) : task.InOrder (condense p) := by
  have kept : task.InOrder { p with readings := p.readings.filter Reading.alive } := by
    apply order.of_subset
    intro r listed
    rw [Array.toList_filter] at listed
    exact List.mem_of_mem_filter listed
  apply (kept.joinReadings _ 0).of_subset
  intro r listed
  rw [Array.toList_extract] at listed
  exact List.mem_of_mem_drop (List.mem_of_mem_take listed)

theorem InOrder.run (order : task.InOrder p) (fuel last : Nat) :
    task.InOrder (task.run fuel last p) := by
  induction fuel generalizing p last with
  | zero => exact order
  | succ fuel ih =>
      rw [Task.run]
      split
      · exact order
      · exact ih (order.driveAll source task.fuel 0 last).condense _

/-- The tree of a text is made of fragments that its grammar allows. -/
theorem exists_derived_of_tree? {tree : Tree} (found : task.tree? = some tree) :
    ∃ fragments, (∀ f ∈ fragments, task.Derived f) ∧
      tree.children = (task.wholeParts fragments).before none [] := by
  -- At the start there is one node, the bottom, and one reading, which stands on it.
  have begun : task.InOrder
      { machine := Machine.start task.tables, stack := #[⟨0, 0, #[]⟩]
        readings := #[⟨0, true⟩] } := by
    obtain ⟨sound, bound⟩ := Machine.sound_start task.tables
    have node (id : Nat) : Stack.nodeAt #[⟨0, 0, #[]⟩] id = ⟨0, 0, #[]⟩ := by
      cases id with
      | zero => rfl
      | succ id => rfl
    refine ⟨sound, ⟨fun id => ?_, fun id link listed => ?_⟩, Nat.one_pos, fun r listed => ?_,
      fun none => by cases none⟩
    · rw [node]
      exact bound
    · rw [node] at listed
      cases listed
    · rw [List.mem_singleton.mp listed]
      exact Nat.one_pos
  rw [tree?] at found
  obtain ⟨best, ended, rfl⟩ := Option.map_eq_some_iff.mp found
  obtain ⟨fragments, derived, same⟩ := (begun.run source task.fuel 0).finished ended
  refine ⟨fragments, derived, ?_⟩
  rw [← same]
  rfl

end Reduce

end Task

end SourceAtlas.Grammar
