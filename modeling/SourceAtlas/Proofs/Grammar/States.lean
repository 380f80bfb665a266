/-
# States hold the items under way

A state after a symbol holds the items that have read this symbol last: those that were under way
before it, taken a step further, and those of productions that begin with it. A machine only notes
down states and what to do in them, so its notes can be trusted, and what it ends with a token are
items of the state that have been read to their ends.
-/

import SourceAtlas.Grammar.Automaton
import SourceAtlas.Proofs.Grammar.Items

namespace SourceAtlas.Grammar

open ItemTable (ItemAt Valid)

/-- A state holds the item of a number. -/
def State.Holds (s : State) (id : Nat) : Prop := ∃ follow, (id, follow) ∈ s.kernel.toList

namespace Tables

/-- The items of the tables are those of a table for their productions. -/
structure ItemsFrom (t : Tables) (table : ItemTable) : Prop where
  valid : Valid t.productions.toList table
  items : t.items = table.items
  /-- What begins with a symbol are items of productions that have read it. -/
  begins : ∀ {symbol : Nat} {b : Nat × Nat}, b ∈ t.begins.getD symbol [] →
    ∃ p ∈ t.productions.toList, ∃ step rest, p.steps = step :: rest ∧ step.symbol = symbol ∧
      ItemAt table p [step] rest b.2
  start : ∀ id ∈ t.start, ∃ p ∈ t.productions.toList, ItemAt table p [] p.steps id
  /-- Only a whole text can be empty. -/
  nonempty : ∀ p ∈ t.productions.toList, p.head ≠ t.whole → p.steps ≠ []

/-- One item leads to another over some symbols. -/
def Advances (t : Tables) : Nat → List Nat → Nat → Prop
  | id, [], last => id = last
  | id, symbol :: rest, last =>
    (t.item id).next = some symbol ∧ t.Advances (t.item id).advanced rest last

theorem ItemsFrom.item_eq {t : Tables} {table : ItemTable} (source : t.ItemsFrom table) {id : Nat}
    {found : Item} (stored : table.items[id]? = some found) : t.item id = found := by
  rw [item, source.items, Array.getD_eq_getD_getElem?, stored, Option.getD_some]

/-- An item that is reached over some symbols has read them. -/
theorem ItemsFrom.itemAt_of_advances {t : Tables} {table : ItemTable} (source : t.ItemsFrom table)
    {p : Production} {symbols : List Nat} {done rest : List Step} {id last : Nat}
    (itemAt : ItemAt table p done rest id) (reached : t.Advances id symbols last) :
    ∃ read more, rest = read ++ more ∧ read.map Step.symbol = symbols ∧
      ItemAt table p (read.reverse ++ done) more last := by
  induction symbols generalizing done rest id with
  | nil =>
      rw [show id = last from reached] at itemAt
      exact ⟨[], rest, rfl, rfl, itemAt⟩
  | cons symbol others ih =>
      obtain ⟨next, later⟩ := reached
      obtain ⟨item, -, stored, -, -, -, -, comes⟩ := source.valid.exists_item itemAt
      rw [source.item_eq stored] at next later
      rw [comes] at next
      cases rest with
      | nil => cases next
      | cons step below =>
          obtain ⟨read, more, split, symbols, there⟩ :=
            ih (source.valid.advanced itemAt stored) later
          refine ⟨step :: read, more, by rw [split]; rfl, ?_, by simpa using there⟩
          rw [List.map_cons, symbols, Option.some.inj next]

/-- Joining entries brings in no item. -/
theorem mem_joinEntries {entries : List (Nat × TokenSet)} {done : Array (Nat × TokenSet)}
    {id : Nat} {follow : TokenSet} (listed : (id, follow) ∈ (joinEntries entries done).toList) :
    (∃ other, (id, other) ∈ entries) ∨ ∃ other, (id, other) ∈ done.toList := by
  induction entries generalizing done with
  | nil => exact .inr ⟨follow, listed⟩
  | cons entry rest ih =>
      -- Whatever stands at the end, an item comes from the rest, from this entry or from before.
      have onward {others : Array (Nat × TokenSet)}
          (fromHere : ∀ other, (id, other) ∈ others.toList →
            (id, other) = entry ∨ ∃ other, (id, other) ∈ done.toList)
          (known : (id, follow) ∈ (joinEntries rest others).toList) :
          (∃ other, (id, other) ∈ entry :: rest) ∨ ∃ other, (id, other) ∈ done.toList := by
        rcases ih known with ⟨other, later⟩ | ⟨other, here⟩
        · exact .inl ⟨other, List.mem_cons_of_mem _ later⟩
        · rcases fromHere other here with same | before
          · exact .inl ⟨other, same ▸ List.mem_cons_self⟩
          · exact .inr before
      have pushed (other : TokenSet) (here : (id, other) ∈ (done.push entry).toList) :
          (id, other) = entry ∨ ∃ other, (id, other) ∈ done.toList := by
        rw [Array.toList_push, List.mem_append, List.mem_singleton] at here
        rcases here with before | same
        · exact .inr ⟨other, before⟩
        · exact .inl same
      rw [joinEntries] at listed
      split at listed
      · rename_i last atEnd
        split at listed
        · refine onward (fun other here => .inr ?_) listed
          rw [Array.toList_push, List.mem_append, List.mem_singleton] at here
          rcases here with before | same
          · rw [Array.toList_pop] at before
            exact ⟨other, List.dropLast_subset _ before⟩
          · cases same
            exact ⟨last.2, Array.mem_toList_iff.mpr (Array.mem_of_back? atEnd)⟩
        · exact onward pushed listed
      · exact onward pushed listed

/-- The items after a symbol were under way before it, or they begin with it. -/
theorem mem_kernelAfter {t : Tables} {s : State} {symbol id : Nat} {follow : TokenSet}
    (listed : (id, follow) ∈ (t.kernelAfter s symbol).toList) :
    (∃ before, s.Holds before ∧ (t.item before).next = some symbol ∧
        (t.item before).advanced = id) ∨
      ∃ b ∈ t.begins.getD symbol [], b.2 = id := by
  rw [kernelAfter] at listed
  rcases mem_joinEntries listed with ⟨other, known⟩ | ⟨other, absurd⟩
  · rw [List.mem_mergeSort, List.mem_append] at known
    rcases known with moved | begun
    · obtain ⟨entry, under, same⟩ := List.mem_filterMap.mp moved
      rw [Option.ite_none_right_eq_some] at same
      obtain ⟨next, same⟩ := same
      cases same
      exact .inl ⟨entry.1, ⟨entry.2, under⟩, eq_of_beq next, rfl⟩
    · obtain ⟨b, among, same⟩ := List.mem_filterMap.mp begun
      rw [Option.ite_none_left_eq_some] at same
      obtain ⟨-, same⟩ := same
      cases same
      exact .inr ⟨b, among, rfl⟩
  · cases absurd

/-- The sets of items to which reading symbols leads from the start of a text. -/
inductive Reachable (t : Tables) : Array (Nat × TokenSet) → Prop where
  | start {kernel : Array (Nat × TokenSet)} :
    (∀ entry ∈ kernel.toList, entry.1 ∈ t.start) → Reachable t kernel
  | after {kernel : Array (Nat × TokenSet)} (symbol : Nat) :
    Reachable t kernel → Reachable t (t.kernelAfter (t.state kernel) symbol)

/-- All that comes up in a state are items of productions. -/
theorem ItemsFrom.exists_itemAt {t : Tables} {table : ItemTable} (source : t.ItemsFrom table)
    {kernel : Array (Nat × TokenSet)} (reachable : t.Reachable kernel) {id : Nat}
    (held : (t.state kernel).Holds id) :
    ∃ p ∈ t.productions.toList, ∃ done rest, ItemAt table p done rest id := by
  induction reachable generalizing id with
  | start starts =>
      obtain ⟨follow, listed⟩ := held
      obtain ⟨p, among, itemAt⟩ := source.start id (starts _ listed)
      exact ⟨p, among, [], p.steps, itemAt⟩
  | after symbol _ ih =>
      obtain ⟨follow, listed⟩ := held
      rcases mem_kernelAfter listed with ⟨before, under, next, rfl⟩ | ⟨b, begun, rfl⟩
      · obtain ⟨p, among, done, rest, itemAt⟩ := ih under
        obtain ⟨item, -, stored, -, -, -, -, comes⟩ := source.valid.exists_item itemAt
        rw [source.item_eq stored] at next ⊢
        cases rest with
        | nil =>
            rw [comes] at next
            cases next
        | cons step below =>
            exact ⟨p, among, step :: done, below, source.valid.advanced itemAt stored⟩
      · obtain ⟨p, among, step, rest, -, -, itemAt⟩ := source.begins begun
        exact ⟨p, among, [step], rest, itemAt⟩

end Tables

/-! ## The notes of a machine -/

/-- The notes of a machine are true, and it knows only states that reading leads to. -/
structure Machine.Sound (t : Tables) (m : Machine) : Prop where
  states : ∀ {id : Nat}, id < m.states.size →
    ∃ kernel, t.Reachable kernel ∧ m.stateAt id = t.state kernel
  ids : ∀ {kernel : Array (Nat × TokenSet)} {id : Nat}, m.ids[kernel]? = some id →
    id < m.states.size ∧ (m.stateAt id).kernel = kernel
  moves : ∀ {state symbol id : Nat}, m.moves[(state, symbol)]? = some id →
    state < m.states.size ∧ id < m.states.size ∧
      (m.stateAt id).kernel = t.kernelAfter (m.stateAt state) symbol
  answers : ∀ {state token : Nat} {actions : List Action},
    m.answers[(state, token)]? = some actions →
      state < m.states.size ∧ actions = t.actions (m.stateAt state) token

/-- A later machine knows the states of an earlier one by the same numbers. -/
structure Machine.Extends (m later : Machine) : Prop where
  size : m.states.size ≤ later.states.size
  stateAt : ∀ {id : Nat}, id < m.states.size → later.stateAt id = m.stateAt id

namespace Machine

theorem Extends.refl (m : Machine) : Extends m m := ⟨Nat.le_refl _, fun _ => rfl⟩

theorem Extends.trans {first second third : Machine} (early : Extends first second)
    (late : Extends second third) : Extends first third :=
  ⟨Nat.le_trans early.size late.size, fun bound =>
    (late.stateAt (Nat.lt_of_lt_of_le bound early.size)).trans (early.stateAt bound)⟩

theorem stateAt_push (m : Machine) (s : State) {id : Nat} (bound : id < m.states.size) :
    (m.states.push s).getD id default = m.stateAt id := by
  rw [stateAt, Array.getD_eq_getD_getElem?, Array.getD_eq_getD_getElem?,
    Array.getElem?_push_lt bound, Array.getElem?_eq_getElem bound]

variable {t : Tables} {m : Machine}

/-- Old notes stay true when states are added. -/
theorem Sound.notes (sound : m.Sound t) {later : Machine} (grown : m.Extends later) :
    (∀ {state symbol id : Nat}, m.moves[(state, symbol)]? = some id →
      state < later.states.size ∧ id < later.states.size ∧
        (later.stateAt id).kernel = t.kernelAfter (later.stateAt state) symbol) ∧
    ∀ {state token : Nat} {actions : List Action}, m.answers[(state, token)]? = some actions →
      state < later.states.size ∧ actions = t.actions (later.stateAt state) token := by
  refine ⟨fun known => ?_, fun known => ?_⟩
  · obtain ⟨out, into, same⟩ := sound.moves known
    rw [grown.stateAt out, grown.stateAt into]
    exact ⟨Nat.lt_of_lt_of_le out grown.size, Nat.lt_of_lt_of_le into grown.size, same⟩
  · obtain ⟨bound, same⟩ := sound.answers known
    rw [grown.stateAt bound]
    exact ⟨Nat.lt_of_lt_of_le bound grown.size, same⟩

/-- The state of some items is found under the number that is given for it. -/
theorem Sound.number (sound : m.Sound t) {kernel : Array (Nat × TokenSet)}
    (reachable : t.Reachable kernel) :
    (m.number t kernel).2.Sound t ∧ m.Extends (m.number t kernel).2 ∧
      (m.number t kernel).1 < (m.number t kernel).2.states.size ∧
      ((m.number t kernel).2.stateAt (m.number t kernel).1).kernel = kernel := by
  rw [Machine.number]
  split
  · rename_i id known
    obtain ⟨bound, same⟩ := sound.ids known
    exact ⟨sound, .refl m, bound, same⟩
  · dsimp only
    generalize afterIs : ({ m with
      states := m.states.push (t.state kernel)
      ids := m.ids.insert kernel m.states.size } : Machine) = later
    have size : later.states.size = m.states.size + 1 := by
      rw [← afterIs, Array.size_push]
    have old {id : Nat} (bound : id < m.states.size) : later.stateAt id = m.stateAt id := by
      rw [← afterIs]
      exact stateAt_push m _ bound
    have new : later.stateAt m.states.size = t.state kernel := by
      rw [← afterIs, stateAt, Array.getD_eq_getD_getElem?, Array.getElem?_push_size,
        Option.getD_some]
    have grown : m.Extends later := ⟨by omega, old⟩
    obtain ⟨moves, answers⟩ := sound.notes grown
    refine ⟨⟨fun {id} bound => ?_, fun {items id} known => ?_, ?_, ?_⟩, grown, ?_, ?_⟩
    · rcases Nat.lt_or_ge id m.states.size with before | after
      · rw [old before]
        exact sound.states before
      · rw [show id = m.states.size by omega, new]
        exact ⟨kernel, reachable, rfl⟩
    · rw [← afterIs, Std.HashMap.getElem?_insert] at known
      split at known
      · rename_i same
        cases known
        rw [new, ← eq_of_beq same]
        exact ⟨by omega, rfl⟩
      · obtain ⟨bound, same⟩ := sound.ids known
        rw [old bound]
        exact ⟨by omega, same⟩
    · rw [← afterIs] at moves ⊢
      exact moves
    · rw [← afterIs] at answers ⊢
      exact answers
    · rw [Array.size_push]
      omega
    · show (later.stateAt m.states.size).kernel = kernel
      rw [new]
      rfl

/-- The state after a symbol holds the items after it. -/
theorem Sound.move (sound : m.Sound t) {state : Nat} (bound : state < m.states.size)
    (symbol : Nat) :
    (m.move t state symbol).2.Sound t ∧ m.Extends (m.move t state symbol).2 ∧
      (m.move t state symbol).1 < (m.move t state symbol).2.states.size ∧
      ((m.move t state symbol).2.stateAt (m.move t state symbol).1).kernel =
        t.kernelAfter (m.stateAt state) symbol := by
  rw [Machine.move]
  split
  · rename_i id known
    obtain ⟨-, into, same⟩ := sound.moves known
    exact ⟨sound, .refl m, into, same⟩
  · have reachable : t.Reachable (t.kernelAfter (m.stateAt state) symbol) := by
      obtain ⟨kernel, before, same⟩ := sound.states bound
      rw [same]
      exact before.after symbol
    obtain ⟨after, grown, into, same⟩ := sound.number reachable
    generalize m.number t (t.kernelAfter (m.stateAt state) symbol) = result at after grown into same
    obtain ⟨id, later⟩ := result
    refine ⟨⟨after.states, after.ids, fun {before read next} known => ?_, after.answers⟩,
      ⟨grown.size, grown.stateAt⟩, into, same⟩
    dsimp only at known
    rw [Std.HashMap.getElem?_insert] at known
    split at known
    · rename_i here
      cases eq_of_beq here
      cases known
      refine ⟨Nat.lt_of_lt_of_le bound grown.size, into, ?_⟩
      exact same.trans (by rw [← grown.stateAt bound]; rfl)
    · exact after.moves known

/-- What to do with a token is what the items of the state say. -/
theorem Sound.actionsAt (sound : m.Sound t) {state : Nat} (bound : state < m.states.size)
    (token : Nat) :
    (m.actionsAt t state token).1 = t.actions (m.stateAt state) token ∧
      (m.actionsAt t state token).2.Sound t ∧ m.Extends (m.actionsAt t state token).2 := by
  rw [Machine.actionsAt]
  split
  · rename_i actions known
    exact ⟨(sound.answers known).2, sound, .refl m⟩
  · refine ⟨rfl, ⟨sound.states, sound.ids, sound.moves, fun {before read actions} known => ?_⟩,
      ⟨Nat.le_refl _, fun _ => rfl⟩⟩
    dsimp only at known
    rw [Std.HashMap.getElem?_insert] at known
    split at known
    · rename_i here
      cases eq_of_beq here
      cases known
      exact ⟨bound, rfl⟩
    · exact sound.answers known

theorem sound_empty (t : Tables) : Sound t {} where
  states bound := by simp at bound
  ids known := by simp at known
  moves known := by simp at known
  answers known := by simp at known

theorem sound_start (t : Tables) : (start t).Sound t ∧ 0 < (start t).states.size := by
  have starts : ∀ entry ∈ (t.start.map fun id =>
      (id, TokenSet.single (t.numbering.terminal .endOfText))).toArray.toList,
      entry.1 ∈ t.start := by
    intro entry listed
    obtain ⟨id, among, rfl⟩ := List.mem_map.mp listed
    exact among
  obtain ⟨sound, -, bound, -⟩ := (sound_empty t).number (.start starts)
  exact ⟨sound, Nat.lt_of_le_of_lt (Nat.zero_le _) bound⟩

end Machine

namespace Tables

variable {t : Tables}

theorem mem_items_addEnding {ending : Ending} {first id : Nat}
    (listed : id ∈ (t.addEnding ending first).items) : id ∈ ending.items ∨ id = first := by
  rw [addEnding] at listed
  generalize (if ending.items.isEmpty = true then Ordering.eq else _) = order at listed
  split at listed
  · exact .inl listed
  · dsimp only at listed
    rw [List.mem_append, List.mem_singleton] at listed
    apply listed.imp_left
    intro before
    split at before
    · cases before
    · exact before

theorem mem_items_foldl_addEnding {ids : List Nat} {ending : Ending} {id : Nat}
    (listed : id ∈ (ids.foldl t.addEnding ending).items) : id ∈ ending.items ∨ id ∈ ids := by
  induction ids generalizing ending with
  | nil => exact .inl listed
  | cons first rest ih =>
      rcases ih listed with added | later
      · apply (mem_items_addEnding added).imp_right
        rintro rfl
        exact List.mem_cons_self
      · exact .inr (List.mem_cons_of_mem _ later)

/-- What a token ends is an item of the state that has nothing still to read. -/
theorem of_reduce_mem_actions {s : State} {token id : Nat}
    (listed : .reduce id ∈ t.actions s token) :
    s.Holds id ∧ (t.item id).next = none ∧ (t.item id).head ≠ t.whole := by
  have ends {ids : List Nat} (all : ∀ other ∈ ids, s.Holds other ∧ (t.item other).next = none)
      (among : Action.reduce id ∈ ids.map fun id =>
        if (t.item id).head == t.whole then Action.accept else Action.reduce id) :
      s.Holds id ∧ (t.item id).next = none ∧ (t.item id).head ≠ t.whole := by
    obtain ⟨other, known, same⟩ := List.mem_map.mp among
    split at same
    · cases same
    · rename_i part
      cases same
      exact ⟨(all id known).1, (all id known).2, fun whole => part (beq_iff_eq.mpr whole)⟩
  rw [actions] at listed
  dsimp only at listed
  generalize endingIs : List.foldl _ _ _ = ending at listed
  have all : ∀ other ∈ ending.items, s.Holds other ∧ (t.item other).next = none := by
    intro other known
    rw [← endingIs] at known
    rcases mem_items_foldl_addEnding known with absurd | done
    · cases absurd
    · obtain ⟨entry, kept, rfl⟩ := List.mem_map.mp done
      obtain ⟨under, complete⟩ := List.mem_filter.mp kept
      rw [Bool.and_eq_true, Option.isNone_iff_eq_none] at complete
      exact ⟨⟨entry.2, under⟩, complete.1⟩
  split at listed
  · split at listed
    · simp at listed
    · exact ends all listed
  · split at listed
    · simp at listed
    · rcases List.mem_append.mp listed with ended | taken
      · split at ended
        · exact ends all ended
        · cases ended
      · split at taken
        · simp at taken
        · cases taken

end Tables

end SourceAtlas.Grammar
