/-
# Items stand for productions

The items of a grammar are gathered in a table that gives equal items one number. What is still to
come, and what has been shown so far, are lists that have numbers of their own; a number is given to
one list only. So the number of an item tells what is still to come in its production, what roles
and kinds the parts that were read have, and the phrase, though not always which production it is:
items of productions that differ only in what was read are shared.
-/

import Mathlib.Data.List.Basic
import SourceAtlas.Grammar.Item

namespace SourceAtlas.Grammar

/-- Where each step keeps the best so far or takes the next, the best is one of those looked at. -/
theorem mem_of_foldl_best {α : Type} {choose : Option α → α → Option α}
    (either : ∀ best next, choose best next = some next ∨ choose best next = best)
    {items : List α} {best : α} (found : items.foldl choose none = some best) : best ∈ items := by
  let Among (sofar : Option α) : Prop := ∀ one, sofar = some one → one ∈ items
  suffices Among (some best) from this best rfl
  rw [← found]
  apply List.foldlRecOn (motive := Among)
  · intro one none
    cases none
  · intro sofar among next listed one same
    rcases either sofar next with taken | kept
    · rw [taken] at same
      cases same
      exact listed
    · rw [kept] at same
      exact among one same

section Numbered

variable {κ : Type} [BEq κ] [Hashable κ]

/-- Every number was given once, and none of them is zero. -/
structure Numbered (m : Std.HashMap κ Nat) : Prop where
  pos : ∀ {k : κ} {v : Nat}, m[k]? = some v → 0 < v
  le_size : ∀ {k : κ} {v : Nat}, m[k]? = some v → v ≤ m.size
  injective : ∀ {k l : κ} {v : Nat}, m[k]? = some v → m[l]? = some v → k = l

/-- Another table has all numbers that a table has. -/
def Kept (m n : Std.HashMap κ Nat) : Prop :=
  ∀ {k : κ} {v : Nat}, m[k]? = some v → n[k]? = some v

variable [LawfulBEq κ]

theorem numbered_empty : Numbered (∅ : Std.HashMap κ Nat) where
  pos found := by simp at found
  le_size found := by simp at found
  injective found := by simp at found

theorem kept_insert {m : Std.HashMap κ Nat} {k : κ} (fresh : m[k]? = none) (v : Nat) :
    Kept m (m.insert k v) := by
  intro l w found
  have apart : ¬ k = l := by
    rintro rfl
    rw [fresh] at found
    cases found
  rw [Std.HashMap.getElem?_insert]
  simpa [apart] using found

theorem Numbered.insert {m : Std.HashMap κ Nat} (numbered : Numbered m) {k : κ}
    (fresh : m[k]? = none) : Numbered (m.insert k (m.size + 1)) := by
  have size : (m.insert k (m.size + 1)).size = m.size + 1 := by
    rw [Std.HashMap.size_insert, if_neg]
    rw [Std.HashMap.mem_iff_isSome_getElem?, fresh]
    exact Bool.false_ne_true
  -- A number of the new table is the new one or one of the old table.
  have either {l : κ} {v : Nat} (found : (m.insert k (m.size + 1))[l]? = some v) :
      (k = l ∧ m.size + 1 = v) ∨ m[l]? = some v := by
    rw [Std.HashMap.getElem?_insert] at found
    split at found
    · rename_i same
      exact .inl ⟨eq_of_beq same, Option.some.inj found⟩
    · exact .inr found
  refine ⟨fun found => ?_, fun found => ?_, fun found again => ?_⟩
  · rcases either found with ⟨-, new⟩ | old
    · omega
    · exact numbered.pos old
  · rw [size]
    rcases either found with ⟨-, new⟩ | old
    · omega
    · exact Nat.le_succ_of_le (numbered.le_size old)
  · rcases either found with ⟨here, new⟩ | old <;> rcases either again with ⟨there, same⟩ | known
    · exact here.symm.trans there
    · have := numbered.le_size known
      omega
    · have := numbered.le_size old
      omega
    · exact numbered.injective old known

end Numbered

section Spelled

variable {α : Type} [BEq α] [Hashable α]

/-- The number of a list: that of its first element together with the number of the rest. -/
def Spelled (m : Std.HashMap (α × Nat) Nat) : List α → Nat → Prop
  | [], id => id = 0
  | a :: rest, id => ∃ below, Spelled m rest below ∧ m[(a, below)]? = some id

theorem Spelled.mono {m n : Std.HashMap (α × Nat) Nat} (kept : Kept m n) {items : List α}
    {id : Nat} (spelled : Spelled m items id) : Spelled n items id := by
  induction items generalizing id with
  | nil => exact spelled
  | cons a rest ih =>
      obtain ⟨below, inner, found⟩ := spelled
      exact ⟨below, ih inner, kept found⟩

/-- A number stands for one list. -/
theorem Spelled.unique {m : Std.HashMap (α × Nat) Nat} (numbered : Numbered m)
    {items others : List α} {id : Nat} (first : Spelled m items id) (second : Spelled m others id) :
    items = others := by
  induction items generalizing others id with
  | nil =>
      cases others with
      | nil => rfl
      | cons b rest =>
          obtain ⟨below, -, found⟩ := second
          have := numbered.pos found
          rw [show id = 0 from first] at this
          omega
  | cons a rest ih =>
      obtain ⟨below, inner, found⟩ := first
      cases others with
      | nil =>
          have := numbered.pos found
          rw [show id = 0 from second] at this
          omega
      | cons b more =>
          obtain ⟨under, deeper, again⟩ := second
          cases numbered.injective found again
          rw [ih inner deeper]

end Spelled

/-- What a step shows of what it reads. -/
def Step.look (step : Step) : Option Shown × Option String := (step.shown, step.role)

namespace ItemTable

/-- The key of the item of a production that has read some steps, the last of them first, and has
others still to read. -/
structure KeyOf (table : ItemTable) (p : Production) (done rest : List Step) (key : ItemKey) :
    Prop where
  steps : p.steps = done.reverse ++ rest
  head : key.head = p.head
  read : key.read = done.length
  weight : key.weight = p.weight
  level : key.level = (done.head?.map Step.level).getD .unsaid
  side : key.side = done.head?.bind Step.side
  trail : Spelled table.trails (done.map Step.look) key.trail
  rest : Spelled table.rests rest key.rest

/-- The item of a production that has read some steps and has others still to read. -/
def ItemAt (table : ItemTable) (p : Production) (done rest : List Step) (id : Nat) : Prop :=
  ∃ key, KeyOf table p done rest key ∧ table.ids[key]? = some id

theorem ItemAt.steps_eq {table : ItemTable} {p : Production} {done rest : List Step} {id : Nat}
    (itemAt : ItemAt table p done rest id) : p.steps = done.reverse ++ rest := by
  obtain ⟨key, keyOf, -⟩ := itemAt
  exact keyOf.steps

/-- What an item says about one of its productions. -/
structure Describes (productions : List Production) (table : ItemTable) (p : Production)
    (done rest : List Step) (item : Item) : Prop where
  head : item.head = p.head
  production : productions[item.production]? = some p
  length : item.length = p.steps.length
  next : item.next = rest.head?.map Step.symbol
  advanced : ∀ step more, rest = step :: more → ItemAt table p (step :: done) more item.advanced

/-- A later state of a table. What had a number has it still, so an item may be looked up in any
later table. -/
structure Extends (table later : ItemTable) : Prop where
  trails : Kept table.trails later.trails
  rests : Kept table.rests later.rests
  ids : Kept table.ids later.ids
  items : ∀ {id : Nat} {item : Item}, table.items[id]? = some item → later.items[id]? = some item

/-- Equal keys have one number, and every item describes a production with its key. -/
structure Valid (productions : List Production) (table : ItemTable) : Prop where
  trails : Numbered table.trails
  rests : Numbered table.rests
  injective : ∀ {k l : ItemKey} {id : Nat},
    table.ids[k]? = some id → table.ids[l]? = some id → k = l
  described : ∀ {key : ItemKey} {id : Nat}, table.ids[key]? = some id →
    ∃ p done rest item, KeyOf table p done rest key ∧ table.items[id]? = some item ∧
      Describes productions table p done rest item

theorem Extends.refl (table : ItemTable) : Extends table table :=
  ⟨fun found => found, fun found => found, fun found => found, fun found => found⟩

theorem Extends.trans {first second third : ItemTable} (early : Extends first second)
    (late : Extends second third) : Extends first third :=
  ⟨fun found => late.trails (early.trails found), fun found => late.rests (early.rests found),
    fun found => late.ids (early.ids found), fun found => late.items (early.items found)⟩

section Mono

variable {table later : ItemTable} (grown : Extends table later) {p : Production}
  {done rest : List Step}
include grown

theorem KeyOf.mono {key : ItemKey} (keyOf : KeyOf table p done rest key) :
    KeyOf later p done rest key :=
  { keyOf with trail := keyOf.trail.mono grown.trails, rest := keyOf.rest.mono grown.rests }

theorem ItemAt.mono {id : Nat} (itemAt : ItemAt table p done rest id) :
    ItemAt later p done rest id := by
  obtain ⟨key, keyOf, found⟩ := itemAt
  exact ⟨key, keyOf.mono grown, grown.ids found⟩

theorem Describes.mono {productions : List Production} {item : Item}
    (describes : Describes productions table p done rest item) :
    Describes productions later p done rest item :=
  { describes with
    advanced := fun step more split => (describes.advanced step more split).mono grown }

end Mono

/-! ## What an item tells -/

section Valid

variable {productions : List Production} {table : ItemTable} (valid : Valid productions table)
  {p q : Production} {done rest others more : List Step} {id : Nat}
include valid

/-- Productions that share an item agree in their phrases, in what is still to come, and in what was
shown of what has been read. -/
theorem Valid.agree (first : ItemAt table p done rest id) (second : ItemAt table q others more id) :
    p.head = q.head ∧ p.weight = q.weight ∧ rest = more ∧
      done.map Step.look = others.map Step.look := by
  obtain ⟨key, keyOf, found⟩ := first
  obtain ⟨_, keyOf', again⟩ := second
  cases valid.injective found again
  exact ⟨keyOf.head.symm.trans keyOf'.head, keyOf.weight.symm.trans keyOf'.weight,
    keyOf.rest.unique valid.rests keyOf'.rest, keyOf.trail.unique valid.trails keyOf'.trail⟩

/-- An item describes each of its productions as far as they agree. -/
theorem Valid.exists_item (itemAt : ItemAt table p done rest id) :
    ∃ item written, table.items[id]? = some item ∧ item.head = p.head ∧
      productions[item.production]? = some written ∧
      (∃ before : List Step, written.steps = before.reverse ++ rest ∧
        before.map Step.look = done.map Step.look) ∧
      item.length = p.steps.length ∧ item.next = rest.head?.map Step.symbol := by
  obtain ⟨key, keyOf, found⟩ := itemAt
  obtain ⟨q, before, more, item, keyOf', stored, describes⟩ := valid.described found
  obtain ⟨head, -, rfl, looks⟩ := valid.agree ⟨key, keyOf', found⟩ ⟨key, keyOf, found⟩
  have lengths : before.length = done.length := by simpa using congrArg List.length looks
  refine ⟨item, q, stored, describes.head.trans head, describes.production,
    ⟨before, keyOf'.steps, looks⟩, ?_, describes.next⟩
  rw [describes.length, keyOf'.steps, keyOf.steps]
  simp [lengths]

/-- The item that has read one step more. -/
theorem Valid.advanced {step : Step} {item : Item} (itemAt : ItemAt table p done (step :: rest) id)
    (stored : table.items[id]? = some item) : ItemAt table p (step :: done) rest item.advanced := by
  obtain ⟨key, keyOf, found⟩ := itemAt
  obtain ⟨q, before, more, same, keyOf', again, describes⟩ := valid.described found
  cases stored.symm.trans again
  obtain ⟨head, weight, rfl, looks⟩ := valid.agree ⟨key, keyOf', found⟩ ⟨key, keyOf, found⟩
  obtain ⟨next, nextOf, reached⟩ := describes.advanced step rest rfl
  have lengths : before.length = done.length := by simpa using congrArg List.length looks
  refine ⟨next, ⟨?_, ?_, ?_, ?_, nextOf.level, nextOf.side, ?_, nextOf.rest⟩, reached⟩
  · rw [keyOf.steps]
    simp
  · rw [nextOf.head, head]
  · rw [nextOf.read]
    simp [lengths]
  · rw [nextOf.weight, weight]
  · have trail := nextOf.trail
    rw [List.map_cons, looks, ← List.map_cons] at trail
    exact trail

end Valid

deriving instance ReflBEq, LawfulBEq for ItemKey

theorem valid_empty (productions : List Production) : Valid productions {} where
  trails := numbered_empty
  rests := numbered_empty
  injective found := by simp at found
  described found := by simp at found

/-- The numbers of all rests of a sequence, from the whole of it on. -/
def RestsSpelled (table : ItemTable) : List Step → List Nat → Prop
  | [], ids => ∃ more, ids = 0 :: more
  | step :: rest, ids =>
    ∃ id more, ids = id :: more ∧ Spelled table.rests (step :: rest) id ∧
      RestsSpelled table rest more

/-- The numbers of what a sequence shows of its starts, from where some steps have been read. -/
def TrailsSpelled (table : ItemTable) : List Step → List Step → List Nat → Prop
  | done, [], ids => ∃ id more, ids = id :: more ∧ Spelled table.trails (done.map Step.look) id
  | done, step :: rest, ids =>
    ∃ id more, ids = id :: more ∧ Spelled table.trails (done.map Step.look) id ∧
      TrailsSpelled table (step :: done) rest more

theorem RestsSpelled.headD {table : ItemTable} {steps : List Step} {ids : List Nat}
    (spelled : RestsSpelled table steps ids) : Spelled table.rests steps (ids.headD 0) := by
  cases steps with
  | nil =>
      obtain ⟨more, rfl⟩ := spelled
      rfl
  | cons step rest =>
      obtain ⟨id, more, rfl, here, -⟩ := spelled
      exact here

theorem TrailsSpelled.headD {table : ItemTable} {done steps : List Step} {ids : List Nat}
    (spelled : TrailsSpelled table done steps ids) :
    Spelled table.trails (done.map Step.look) (ids.headD 0) := by
  cases steps with
  | nil =>
      obtain ⟨id, more, rfl, here⟩ := spelled
      exact here
  | cons step rest =>
      obtain ⟨id, more, rfl, here, -⟩ := spelled
      exact here

theorem RestsSpelled.mono {table later : ItemTable} (grown : Extends table later)
    {steps : List Step} {ids : List Nat} (spelled : RestsSpelled table steps ids) :
    RestsSpelled later steps ids := by
  induction steps generalizing ids with
  | nil => exact spelled
  | cons step rest ih =>
      obtain ⟨id, more, same, here, below⟩ := spelled
      exact ⟨id, more, same, here.mono grown.rests, ih below⟩

section Gathering

variable {productions : List Production}

/-- New numbers for lists leave the items as they are. -/
theorem Valid.of_extends {table later : ItemTable} (valid : Valid productions table)
    (grown : Extends table later) (ids : later.ids = table.ids) (items : later.items = table.items)
    (trails : Numbered later.trails) (rests : Numbered later.rests) :
    Valid productions later where
  trails := trails
  rests := rests
  injective := by
    rw [ids]
    exact valid.injective
  described := by
    rw [ids, items]
    intro key id found
    obtain ⟨p, done, rest, item, keyOf, stored, describes⟩ := valid.described found
    exact ⟨p, done, rest, item, keyOf.mono grown, stored, describes.mono grown⟩

/-- A step that keeps the table valid and only adds to it, with what holds afterwards. -/
def Gathers (productions : List Production) (table : ItemTable) {α : Type}
    (action : StateM ItemTable α) (post : ItemTable → α → Prop) : Prop :=
  Valid productions (action.run table).2 ∧ Extends table (action.run table).2 ∧
    post (action.run table).2 (action.run table).1

theorem gathers_pure {table : ItemTable} {α : Type} {a : α} {post : ItemTable → α → Prop}
    (valid : Valid productions table) (holds : post table a) :
    Gathers productions table (pure a) post :=
  ⟨valid, .refl table, holds⟩

theorem Gathers.bind {table : ItemTable} {α β : Type} {action : StateM ItemTable α}
    {next : α → StateM ItemTable β} {middle : ItemTable → α → Prop} {post : ItemTable → β → Prop}
    (first : Gathers productions table action middle)
    (second : ∀ later a, Valid productions later → Extends table later → middle later a →
      Gathers productions later (next a) post) :
    Gathers productions table (action >>= next) post := by
  obtain ⟨valid, grown, holds⟩ := first
  obtain ⟨validAfter, grownAfter, holdsAfter⟩ := second _ _ valid grown holds
  exact ⟨validAfter, grown.trans grownAfter, holdsAfter⟩

theorem gathers_get_bind {table : ItemTable} {β : Type} {next : ItemTable → StateM ItemTable β}
    {post : ItemTable → β → Prop} (rest : Gathers productions table (next table) post) :
    Gathers productions table (get >>= next) post := rest

theorem gathers_set_bind {table later : ItemTable} {β : Type} {next : PUnit → StateM ItemTable β}
    {post : ItemTable → β → Prop} (grown : Extends table later)
    (rest : Gathers productions later (next ⟨⟩) post) :
    Gathers productions table (set later >>= next) post :=
  ⟨rest.1, grown.trans rest.2.1, rest.2.2⟩

/-- A new rest gets the next number. -/
theorem Valid.insertRest {table : ItemTable} (valid : Valid productions table) {key : Step × Nat}
    (fresh : table.rests[key]? = none) :
    Valid productions { table with rests := table.rests.insert key (table.rests.size + 1) } ∧
      Extends table { table with rests := table.rests.insert key (table.rests.size + 1) } := by
  have grown : Extends table
      { table with rests := table.rests.insert key (table.rests.size + 1) } :=
    ⟨fun found => found, kept_insert fresh _, fun found => found, fun found => found⟩
  exact ⟨valid.of_extends grown rfl rfl valid.trails (valid.rests.insert fresh), grown⟩

/-- A new start gets the next number. -/
theorem Valid.insertTrail {table : ItemTable} (valid : Valid productions table)
    {key : (Option Shown × Option String) × Nat} (fresh : table.trails[key]? = none) :
    Valid productions { table with trails := table.trails.insert key (table.trails.size + 1) } ∧
      Extends table { table with trails := table.trails.insert key (table.trails.size + 1) } := by
  have grown : Extends table
      { table with trails := table.trails.insert key (table.trails.size + 1) } :=
    ⟨kept_insert fresh _, fun found => found, fun found => found, fun found => found⟩
  exact ⟨valid.of_extends grown rfl rfl (valid.trails.insert fresh) valid.rests, grown⟩

theorem gathers_numberRests {table : ItemTable} (valid : Valid productions table)
    (steps : List Step) :
    Gathers productions table (numberRests steps)
      fun later ids => RestsSpelled later steps ids := by
  induction steps with
  | nil => exact gathers_pure valid ⟨[], rfl⟩
  | cons step rest ih =>
      rw [numberRests]
      refine ih.bind fun after below afterValid _ spelled => gathers_get_bind ?_
      dsimp only
      split
      · rename_i id known
        exact gathers_pure afterValid ⟨id, below, rfl, ⟨_, spelled.headD, known⟩, spelled⟩
      · rename_i fresh
        obtain ⟨newValid, grown⟩ := afterValid.insertRest fresh
        refine gathers_set_bind grown (gathers_pure newValid
          ⟨_, below, rfl, ⟨_, spelled.headD.mono grown.rests, ?_⟩, spelled.mono grown⟩)
        exact Std.HashMap.getElem?_insert_self

theorem gathers_numberTrails {table : ItemTable} (valid : Valid productions table) (sofar : Nat)
    (done steps : List Step) (spelled : Spelled table.trails (done.map Step.look) sofar) :
    Gathers productions table (numberTrails sofar steps)
      fun later ids => TrailsSpelled later done steps ids := by
  induction steps generalizing table sofar done with
  | nil => exact gathers_pure valid ⟨sofar, [], rfl, spelled⟩
  | cons step rest ih =>
      rw [numberTrails]
      refine gathers_get_bind ?_
      have onward {after : ItemTable} (afterValid : Valid productions after) {id : Nat}
          (here : Spelled after.trails (done.map Step.look) sofar)
          (next : Spelled after.trails ((step :: done).map Step.look) id) :
          Gathers productions after (numberTrails id rest >>= fun ids => pure (sofar :: ids))
            fun later ids => TrailsSpelled later done (step :: rest) ids := by
        refine (ih afterValid id (step :: done) next).bind
          fun later ids laterValid grown below => ?_
        exact gathers_pure laterValid ⟨sofar, ids, rfl, here.mono grown.trails, below⟩
      dsimp only
      split
      · rename_i id known
        exact onward valid spelled ⟨sofar, spelled, known⟩
      · rename_i fresh
        obtain ⟨newValid, grown⟩ := valid.insertTrail fresh
        have kept := spelled.mono grown.trails
        exact gathers_set_bind grown
          (onward newValid kept ⟨sofar, kept, Std.HashMap.getElem?_insert_self⟩)

/-- A new item gets the next number. -/
theorem Valid.insertItem {table : ItemTable} (valid : Valid productions table) {p : Production}
    {done rest : List Step} {key : ItemKey} (keyOf : KeyOf table p done rest key) {item : Item}
    (describes : Describes productions table p done rest item) (fresh : table.ids[key]? = none) :
    let later : ItemTable :=
      { table with items := table.items.push item, ids := table.ids.insert key table.items.size }
    Valid productions later ∧ Extends table later := by
  intro later
  have inside {k : ItemKey} {id : Nat} (found : table.ids[k]? = some id) :
      id < table.items.size := by
    obtain ⟨_, _, _, _, -, stored, -⟩ := valid.described found
    exact (Array.getElem?_eq_some_iff.mp stored).1
  have either {k : ItemKey} {id : Nat} (found : later.ids[k]? = some id) :
      (key = k ∧ table.items.size = id) ∨ table.ids[k]? = some id := by
    rw [show later.ids = table.ids.insert key table.items.size from rfl,
      Std.HashMap.getElem?_insert] at found
    split at found
    · rename_i same
      exact .inl ⟨eq_of_beq same, Option.some.inj found⟩
    · exact .inr found
  have grown : Extends table later := by
    refine ⟨fun found => found, fun found => found, kept_insert fresh _, fun stored => ?_⟩
    obtain ⟨bound, same⟩ := Array.getElem?_eq_some_iff.mp stored
    rw [show later.items = table.items.push item from rfl, Array.getElem?_push_lt bound, same]
  refine ⟨⟨valid.trails, valid.rests, fun found again => ?_, fun found => ?_⟩, grown⟩
  · rcases either found with ⟨here, new⟩ | old <;> rcases either again with ⟨there, same⟩ | known
    · exact here.symm.trans there
    · have := inside known
      omega
    · have := inside old
      omega
    · exact valid.injective old known
  · rcases either found with ⟨rfl, rfl⟩ | old
    · exact ⟨p, done, rest, item, keyOf.mono grown, Array.getElem?_push_size, describes.mono grown⟩
    · obtain ⟨q, before, more, known, keyOf', stored, describes'⟩ := valid.described old
      exact ⟨q, before, more, known, keyOf'.mono grown, grown.items stored, describes'.mono grown⟩

/-- Adding an item gives the number of its key. -/
theorem gathers_addItem {table : ItemTable} (valid : Valid productions table) {p : Production}
    {done rest : List Step} {key : ItemKey} (keyOf : KeyOf table p done rest key) {item : Item}
    (describes : Describes productions table p done rest item) :
    Gathers productions table (addItem key item) fun later id => ItemAt later p done rest id := by
  rw [addItem]
  refine gathers_get_bind ?_
  dsimp only
  split
  · rename_i id known
    exact gathers_pure valid ⟨key, keyOf, known⟩
  · rename_i fresh
    obtain ⟨newValid, grown⟩ := valid.insertItem keyOf describes fresh
    refine gathers_set_bind grown (gathers_pure newValid ⟨key, keyOf.mono grown, ?_⟩)
    exact Std.HashMap.getElem?_insert_self

theorem TrailsSpelled.mono {table later : ItemTable} (grown : Extends table later)
    {done steps : List Step} {ids : List Nat} (spelled : TrailsSpelled table done steps ids) :
    TrailsSpelled later done steps ids := by
  induction steps generalizing done ids with
  | nil =>
      obtain ⟨id, more, same, here⟩ := spelled
      exact ⟨id, more, same, here.mono grown.trails⟩
  | cons step rest ih =>
      obtain ⟨id, more, same, here, below⟩ := spelled
      exact ⟨id, more, same, here.mono grown.trails, ih below⟩

/-- The items of a production are added from its end on. -/
theorem gathers_addItemsFrom {p : Production} {production : Nat}
    (listed : productions[production]? = some p) {done steps : List Step}
    (split : p.steps = done.reverse ++ steps) {table : ItemTable} (valid : Valid productions table)
    {trails rests : List Nat} (trailsAre : TrailsSpelled table done steps trails)
    (restsAre : RestsSpelled table steps rests) :
    Gathers productions table
      (addItemsFrom p production done.length done.head? steps trails rests)
      fun later id => ItemAt later p done steps id := by
  induction steps generalizing done table trails rests with
  | nil =>
      rw [addItemsFrom]
      refine gathers_addItem valid ⟨split, rfl, rfl, rfl, rfl, rfl, trailsAre.headD, restsAre.headD⟩
        ⟨rfl, listed, rfl, rfl, fun _ _ absurd => ?_⟩
      cases absurd
  | cons step rest ih =>
      rw [addItemsFrom]
      obtain ⟨trail, trailsBelow, rfl, trailHere, trailsInner⟩ := trailsAre
      obtain ⟨restId, restsBelow, rfl, restHere, restsInner⟩ := restsAre
      have further : p.steps = (step :: done).reverse ++ rest := by
        rw [split]
        simp
      refine (ih further valid trailsInner restsInner).bind
        fun later advanced laterValid grown reached => ?_
      refine gathers_addItem laterValid
        ⟨split, rfl, rfl, rfl, rfl, rfl, trailHere.mono grown.trails, restHere.mono grown.rests⟩
        ⟨rfl, listed, rfl, rfl, fun next more same => ?_⟩
      cases same
      exact reached

theorem gathers_addProduction {p : Production} {production : Nat}
    (listed : productions[production]? = some p) {table : ItemTable}
    (valid : Valid productions table) :
    Gathers productions table (addProduction p production)
      fun later id => ItemAt later p [] p.steps id := by
  rw [addProduction]
  refine (gathers_numberRests valid p.steps).bind fun first rests firstValid _ restsAre => ?_
  refine (gathers_numberTrails firstValid 0 [] p.steps rfl).bind
    fun second trails secondValid grown trailsAre => ?_
  exact gathers_addItemsFrom listed rfl secondValid trailsAre (restsAre.mono grown)

/-- All productions have their items in the end. -/
theorem gathers_addProductions {numbered : List (Production × Nat)}
    (listed : ∀ p ∈ numbered, productions[p.2]? = some p.1) {table : ItemTable}
    (valid : Valid productions table) :
    Gathers productions table (numbered.mapM fun p => addProduction p.1 p.2) fun later ids =>
      List.Forall₂ (fun p id => ItemAt later p.1 [] p.1.steps id) numbered ids := by
  induction numbered generalizing table with
  | nil => exact gathers_pure valid .nil
  | cons p rest ih =>
      rw [List.mapM_cons]
      refine (gathers_addProduction (listed p List.mem_cons_self) valid).bind
        fun first id firstValid _ here => ?_
      refine (ih (fun q later => listed q (List.mem_cons_of_mem _ later)) firstValid).bind
        fun last ids lastValid grown others => ?_
      exact gathers_pure lastValid (.cons (here.mono grown) others)

end Gathering

end ItemTable

end SourceAtlas.Grammar
