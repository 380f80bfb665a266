/-
# The stack remembers what was read

Every link of the stack leads from a state to the one that has read the fragment on the link, and
this stays so however readings share their stacks. So the fragments between the top of a reading and
the place where an item was begun are what a production of this item reads.
-/

import SourceAtlas.Grammar.Stack
import SourceAtlas.Proofs.Grammar.States

namespace SourceAtlas.Grammar

open ItemTable (ItemAt)

namespace Stack

/-- A fragment leads from one state to another; what may stand anywhere leaves the state. -/
def Leads (t : Tables) (m : Machine) (lower : Nat) (fragment : Fragment) (upper : Nat) : Prop :=
  if fragment.extra then lower = upper
  else (m.stateAt upper).kernel = t.kernelAfter (m.stateAt lower) fragment.symbol

/-- A link fits between the nodes that it joins: its fragment leads from the state of the lower one
to that of the upper one. -/
structure LinkFits (t : Tables) (m : Machine) (known : Fragment → Prop) (stack : Stack)
    (upper : Nat) (link : Link) : Prop where
  below : link.below < stack.size
  fragment : known link.fragment
  leads : Leads t m (stack.nodeAt link.below).state link.fragment upper

/-- All links of a stack fit, and its fragments are of a known sort. -/
structure Fits (t : Tables) (m : Machine) (known : Fragment → Prop) (stack : Stack) : Prop where
  state : ∀ id, (stack.nodeAt id).state < m.states.size
  links : ∀ id, ∀ link ∈ (stack.nodeAt id).links.toList,
    LinkFits t m known stack (stack.nodeAt id).state link

/-- Two stacks have the same nodes, though perhaps not the same links. -/
structure SameStates (first second : Stack) : Prop where
  size : first.size = second.size
  state : ∀ id, (first.nodeAt id).state = (second.nodeAt id).state

theorem SameStates.refl (stack : Stack) : SameStates stack stack := ⟨rfl, fun _ => rfl⟩

theorem SameStates.trans {first second third : Stack} (early : SameStates first second)
    (late : SameStates second third) : SameStates first third :=
  ⟨early.size.trans late.size, fun id => (early.state id).trans (late.state id)⟩

section

variable {t : Tables} {m : Machine} {known : Fragment → Prop} {stack : Stack}

theorem LinkFits.of_sameStates {other : Stack} (same : SameStates stack other) {upper : Nat}
    {link : Link} (fits : LinkFits t m known stack upper link) :
    LinkFits t m known other upper link := by
  refine ⟨?_, fits.fragment, ?_⟩
  · rw [← same.size]
    exact fits.below
  · rw [← same.state]
    exact fits.leads

/-- New states of the machine leave a stack as it is. -/
theorem Fits.mono (fits : Fits t m known stack) {later : Machine} (grown : m.Extends later) :
    Fits t later known stack := by
  refine ⟨fun id => Nat.lt_of_lt_of_le (fits.state id) grown.size, fun id link listed => ?_⟩
  have before := fits.links id link listed
  refine ⟨before.below, before.fragment, ?_⟩
  have leads := before.leads
  rw [Leads] at leads ⊢
  rw [grown.stateAt (fits.state id), grown.stateAt (fits.state link.below)]
  exact leads

theorem nodeAt_push_of_lt {below : Nat} {fragment : Fragment} {state id : Nat}
    (bound : id < stack.size) :
    (stack.push below fragment state).2.nodeAt id = stack.nodeAt id := by
  rw [nodeAt, nodeAt, push, Array.getD_eq_getD_getElem?, Array.getD_eq_getD_getElem?,
    Array.getElem?_push_lt bound, Array.getElem?_eq_getElem bound]

theorem nodeAt_push_self (stack : Stack) (below : Nat) (fragment : Fragment) (state : Nat) :
    (stack.push below fragment state).2.nodeAt stack.size =
      ⟨state, fragment.span.stop, #[⟨below, fragment⟩]⟩ := by
  rw [nodeAt, push, Array.getD_eq_getD_getElem?, Array.getElem?_push_size, Option.getD_some]

theorem nodeAt_of_size_le {id : Nat} (outside : stack.size ≤ id) : stack.nodeAt id = default := by
  rw [nodeAt, Array.getD_eq_getD_getElem?, Array.getElem?_eq_none outside, Option.getD_none]

theorem size_push (stack : Stack) (below : Nat) (fragment : Fragment) (state : Nat) :
    (stack.push below fragment state).2.size = stack.size + 1 :=
  Array.size_push _

/-- A fragment can be put where it leads on. -/
theorem Fits.push (fits : Fits t m known stack) {below : Nat} (inside : below < stack.size)
    {fragment : Fragment} (sort : known fragment) {state : Nat} (bound : state < m.states.size)
    (leads : Leads t m (stack.nodeAt below).state fragment state) :
    Fits t m known (stack.push below fragment state).2 := by
  have old {id : Nat} {link : Link} (before : LinkFits t m known stack id link) :
      LinkFits t m known (stack.push below fragment state).2 id link := by
    refine ⟨?_, before.fragment, ?_⟩
    · rw [size_push]
      exact Nat.lt_succ_of_lt before.below
    · rw [nodeAt_push_of_lt before.below]
      exact before.leads
  refine ⟨fun id => ?_, fun id link listed => ?_⟩
  · rcases Nat.lt_trichotomy id stack.size with before | rfl | after
    · rw [nodeAt_push_of_lt before]
      exact fits.state id
    · rw [nodeAt_push_self]
      exact bound
    · rw [nodeAt_of_size_le (by rw [size_push]; exact after)]
      exact Nat.lt_of_le_of_lt (Nat.zero_le _) bound
  · rcases Nat.lt_trichotomy id stack.size with before | rfl | after
    · rw [nodeAt_push_of_lt before] at listed ⊢
      exact old (fits.links id link listed)
    · rw [nodeAt_push_self] at listed ⊢
      rw [List.mem_singleton.mp listed]
      exact old ⟨inside, sort, leads⟩
    · rw [nodeAt_of_size_le (by rw [size_push]; exact after)] at listed
      cases listed

theorem nodeAt_modify (id : Nat) (f : StackNode → StackNode) (other : Nat) :
    nodeAt (stack.modify id f) other =
      if id = other ∧ other < stack.size then f (stack.nodeAt other) else stack.nodeAt other := by
  rw [nodeAt, nodeAt, Array.getD_eq_getD_getElem?, Array.getD_eq_getD_getElem?,
    Array.getElem?_modify]
  by_cases inside : other < stack.size
  · rw [Array.getElem?_eq_getElem inside]
    by_cases same : id = other
    · simp [same, inside]
    · simp [same]
  · rw [Array.getElem?_eq_none (Nat.le_of_not_lt inside)]
    simp [inside]

/-- The links of a node can be changed as long as they fit. -/
theorem Fits.modifyLinks (fits : Fits t m known stack) (id : Nat) (f : StackNode → Array Link)
    (good : ∀ link ∈ (f (stack.nodeAt id)).toList,
      LinkFits t m known stack (stack.nodeAt id).state link) :
    Fits t m known (stack.modify id fun node => { node with links := f node }) ∧
      SameStates stack (stack.modify id fun node => { node with links := f node }) := by
  have same : SameStates stack (stack.modify id fun node => { node with links := f node }) := by
    refine ⟨Array.size_modify.symm, fun other => ?_⟩
    rw [nodeAt_modify]
    split
    · rfl
    · rfl
  refine ⟨⟨fun other => ?_, fun other link listed => ?_⟩, same⟩
  · rw [← same.state]
    exact fits.state other
  · rw [← same.state]
    refine LinkFits.of_sameStates same ?_
    rw [nodeAt_modify] at listed
    split at listed
    · rename_i here
      rw [← here.1] at listed ⊢
      exact good link listed
    · exact fits.links other link listed

/-- What is done link by link keeps the states if each link is added rightly. -/
theorem Fits.foldl (fits : Fits t m known stack) {upper : Nat} {links : Array Link}
    (good : ∀ link ∈ links.toList, LinkFits t m known stack upper link)
    {add : Stack → Link → Stack}
    (step : ∀ {current : Stack}, Fits t m known current → SameStates stack current →
      ∀ {link : Link}, LinkFits t m known current upper link →
        Fits t m known (add current link) ∧ SameStates current (add current link)) :
    Fits t m known (links.foldl add stack) ∧ SameStates stack (links.foldl add stack) := by
  rw [← Array.foldl_toList]
  apply List.foldlRecOn links.toList add (motive := fun current =>
    Fits t m known current ∧ SameStates stack current) ⟨fits, .refl stack⟩
  intro current before link listed
  obtain ⟨after, same⟩ := step before.1 before.2 ((good link listed).of_sameStates before.2)
  exact ⟨after, before.2.trans same⟩

theorem state_eq_of_sameNode {a b : Nat} (same : stack.sameNode a b = true) :
    (stack.nodeAt a).state = (stack.nodeAt b).state := by
  rw [sameNode, Bool.and_eq_true] at same
  exact eq_of_beq same.1

/-- A link that fits can be added, and the nodes stay what they are. -/
theorem Fits.addLink (fits : Fits t m known stack) (fuel : Nat) {id : Nat} {link : Link}
    (good : LinkFits t m known stack (stack.nodeAt id).state link) :
    Fits t m known (stack.addLink fuel id link) ∧
      SameStates stack (stack.addLink fuel id link) := by
  induction fuel generalizing stack id link with
  | zero => exact ⟨fits, .refl stack⟩
  | succ fuel ih =>
      have unchanged : Fits t m known stack ∧ SameStates stack stack := ⟨fits, .refl stack⟩
      rw [Stack.addLink]
      split
      · exact unchanged
      · split
        · rename_i i found
          split
          · rename_i other stored
            split
            · split
              · -- The heavier reading takes the place of the one that is known.
                refine fits.modifyLinks id (fun node => node.links.setIfInBounds i link) ?_
                intro some listed
                rw [Array.toList_setIfInBounds] at listed
                rcases List.mem_or_eq_of_mem_set listed with before | rfl
                · exact fits.links id some before
                · exact good
              · exact unchanged
            · -- The nodes below are the same, so the links of one fit the other.
              rename_i apart
              have joins := (Array.findIdx?_eq_some_iff_getElem.mp found).2.1
              obtain ⟨inside, rfl⟩ := Array.getElem?_eq_some_iff.mp stored
              rw [Bool.and_eq_true, Bool.or_eq_true] at joins
              have below := state_eq_of_sameNode (joins.2.resolve_left apart)
              refine fits.foldl (fun lower listed => fits.links link.below lower listed) ?_
              intro current before same lower fitting
              apply ih before
              rw [← same.state, below]
              exact fitting
          · exact unchanged
        · split
          · exact unchanged
          · refine fits.modifyLinks id (fun node => node.links.push link) ?_
            intro some listed
            rw [Array.toList_push, List.mem_append, List.mem_singleton] at listed
            rcases listed with before | rfl
            · exact fits.links id some before
            · exact good

/-- Two nodes in the same state can be joined. -/
theorem Fits.join (fits : Fits t m known stack) {into other : Nat}
    (same : (stack.nodeAt into).state = (stack.nodeAt other).state) :
    Fits t m known (stack.join into other) ∧ SameStates stack (stack.join into other) := by
  refine fits.foldl (fun lower listed => fits.links other lower listed) ?_
  intro current before unchanged lower fitting
  apply before.addLink
  rw [← unchanged.state, same]
  exact fitting

end

/-! ## Ways down -/

/-- Some fragments stand between a node and the top of a reading. -/
inductive Between (stack : Stack) (top : Nat) : Nat → List Fragment → Prop where
  | nothing : Between stack top top []
  | further {id : Nat} {fragments : List Fragment} {link : Link} : Between stack top id fragments →
    link ∈ (stack.nodeAt id).links.toList →
    Between stack top link.below (link.fragment :: fragments)

section

variable {stack : Stack} {ends : Way → StackNode → Bool} {good : Way → Prop}

/-- All ways under way are good, and those that have come to their ends end there. -/
structure WaysGood (stack : Stack) (ends : Way → StackNode → Bool) (good : Way → Prop)
    (ways : Ways) : Prop where
  going : ∀ way ∈ ways.going.toList, good way
  branches : ∀ way ∈ ways.branches.toList, good way
  ended : ∀ way ∈ ways.ended.toList, good way ∧ ends way (stack.nodeAt way.node) = true

theorem waysGood_empty : WaysGood stack ends good {} where
  going _ none := by cases none
  branches _ none := by cases none
  ended _ none := by cases none

variable (onward : ∀ {way : Way}, good way → ends way (stack.nodeAt way.node) = false →
  ∀ link ∈ (stack.nodeAt way.node).links.toList, good (way.follow link))
include onward

theorem WaysGood.stepWay {ways : Ways} (before : WaysGood stack ends good ways) {way : Way}
    (here : good way) (waiting : Nat) :
    WaysGood stack ends good (stack.stepWay ends waiting ways way) := by
  rw [Stack.stepWay]
  dsimp only
  by_cases atEnd : ends way (stack.nodeAt way.node) = true
  · rw [if_pos atEnd, if_pos (by rw [atEnd]; rfl)]
    refine ⟨before.going, before.branches, fun other listed => ?_⟩
    rw [Array.toList_push, List.mem_append, List.mem_singleton] at listed
    rcases listed with known | rfl
    · exact before.ended other known
    · exact ⟨here, atEnd⟩
  · rw [if_neg atEnd]
    split
    · exact before
    · have next := onward here (Bool.eq_false_iff.mpr atEnd)
      have branched : WaysGood stack ends good
          (((stack.nodeAt way.node).links.extract 1 (stack.nodeAt way.node).links.size).foldl
            (fun ways link =>
              if ways.going.size + 1 + waiting + ways.branches.size ≥ maxWays then ways
              else { ways with branches := ways.branches.push (way.follow link) }) ways) := by
        rw [← Array.foldl_toList]
        apply List.foldlRecOn (motive := WaysGood stack ends good) _ _ before
        intro ways fine link listed
        split
        · exact fine
        · refine ⟨fine.going, fun other among => ?_, fine.ended⟩
          rw [Array.toList_push, List.mem_append, List.mem_singleton] at among
          rcases among with known | rfl
          · exact fine.branches other known
          · apply next
            rw [Array.toList_extract] at listed
            exact List.mem_of_mem_drop (List.mem_of_mem_take listed)
      split
      · rename_i link first
        refine ⟨fun other listed => ?_, branched.branches, branched.ended⟩
        rw [Array.toList_push, List.mem_append, List.mem_singleton] at listed
        rcases listed with known | rfl
        · exact branched.going other known
        · exact next link (Array.mem_toList_iff.mpr (Array.mem_of_getElem? first))
      · exact branched

theorem WaysGood.stepWays {ways : Ways} (before : WaysGood stack ends good ways)
    {list : List Way} (all : ∀ way ∈ list, good way) :
    WaysGood stack ends good (stack.stepWays ends list ways) := by
  induction list generalizing ways with
  | nil => exact before
  | cons way rest ih =>
      rw [Stack.stepWays]
      exact ih (before.stepWay onward (all way List.mem_cons_self) _)
        fun other later => all other (List.mem_cons_of_mem _ later)

theorem mem_waysDown_from (fuel : Nat) {list : List Way} (all : ∀ way ∈ list, good way)
    {found : Array Way}
    (sofar : ∀ way ∈ found.toList, good way ∧ ends way (stack.nodeAt way.node) = true) :
    ∀ way ∈ (stack.waysDown ends fuel list found).toList,
      good way ∧ ends way (stack.nodeAt way.node) = true := by
  induction fuel generalizing list found with
  | zero => exact sofar
  | succ fuel ih =>
      cases list with
      | nil => exact sofar
      | cons way rest =>
          rw [waysDown]
          have stepped := waysGood_empty.stepWays onward all
          apply ih
          · intro other listed
            rw [Array.toList_append, List.mem_append] at listed
            exact listed.elim (stepped.going other) (stepped.branches other)
          · intro other listed
            rw [Array.toList_append, List.mem_append] at listed
            exact listed.elim (sofar other) (stepped.ended other)

/-- What holds of a way and of every step further down holds of the ways that are found. -/
theorem mem_waysDown {fuel : Nat} {start : Way} (begun : good start) {way : Way}
    (listed : way ∈ (stack.waysDown ends fuel [start] #[]).toList) :
    good way ∧ ends way (stack.nodeAt way.node) = true := by
  refine mem_waysDown_from onward fuel (fun other same => ?_) (fun other none => ?_) way listed
  · rw [List.mem_singleton.mp same]
    exact begun
  · cases none

end

/-- The fragments that are parts of phrases. -/
def solid (fragments : List Fragment) : List Fragment := fragments.filter fun f => !f.extra

/-- A way over a number of fragments counts those that are parts of phrases, and it ends with one of
them. -/
theorem of_mem_waysOver {stack : Stack} {top count : Nat} {way : Way}
    (listed : way ∈ (stack.waysOver top count).toList) :
    stack.Between top way.node way.fragments ∧ (solid way.fragments).length = count ∧
      ∀ first, way.fragments.head? = some first → first.extra = false := by
  -- Of a way that goes on, a last fragment that may stand anywhere was not the last one to count.
  have onward {other : Way}
      (fine : stack.Between top other.node other.fragments ∧
        (solid other.fragments).length = other.count ∧
        ∀ first, other.fragments.head? = some first → first.extra = true → other.count ≠ count)
      (going : (other.count == count) = false) (link : Link)
      (linked : link ∈ (stack.nodeAt other.node).links.toList) :
      stack.Between top (other.follow link).node (other.follow link).fragments ∧
        (solid (other.follow link).fragments).length = (other.follow link).count ∧
        ∀ first, (other.follow link).fragments.head? = some first → first.extra = true →
          (other.follow link).count ≠ count := by
    obtain ⟨between, counted, -⟩ := fine
    refine ⟨.further between linked, ?_, fun first isFirst extra => ?_⟩
    · rw [solid, Way.follow, List.filter_cons]
      cases link.fragment.extra with
      | true => exact counted
      | false =>
          rw [Bool.not_false, if_pos rfl, List.length_cons]
          exact congrArg (· + 1) counted
    · cases isFirst
      rw [Way.follow, if_pos extra]
      exact ne_of_beq_false going
  obtain ⟨⟨between, counted, ending⟩, done⟩ :=
    mem_waysDown onward ⟨.nothing, rfl, fun _ none => by cases none⟩ listed
  rw [eq_of_beq done] at counted ending
  refine ⟨between, counted, fun first isFirst => ?_⟩
  rw [← Bool.not_eq_true]
  intro extra
  exact ending first isFirst extra rfl

/-- What is found on the way to the bottom stands on the stack. -/
theorem between_of_mem_waysToBottom {stack : Stack} {top : Nat} {way : Way}
    (listed : way ∈ (stack.waysToBottom top).toList) :
    stack.Between top way.node way.fragments := by
  have onward {other : Way} (between : stack.Between top other.node other.fragments)
      (_ : (stack.nodeAt other.node).links.isEmpty = false) (link : Link)
      (linked : link ∈ (stack.nodeAt other.node).links.toList) :
      stack.Between top (other.follow link).node (other.follow link).fragments :=
    .further between linked
  exact (mem_waysDown onward .nothing listed).1

/-- A group holds the ways that end at its node. -/
theorem of_mem_groupWays {ways : Array Way} {group : Nat × List (List Fragment)}
    (listed : group ∈ (groupWays ways).toList) {fragments : List Fragment}
    (among : fragments ∈ group.2) :
    ∃ way ∈ ways.toList, way.node = group.1 ∧ way.fragments = fragments := by
  let Right (groups : Array (Nat × List (List Fragment))) : Prop :=
    ∀ group ∈ groups.toList, ∀ fragments ∈ group.2,
      ∃ way ∈ ways.toList, way.node = group.1 ∧ way.fragments = fragments
  suffices Right (groupWays ways) from this group listed fragments among
  rw [groupWays, ← Array.foldl_toList]
  apply List.foldlRecOn (motive := Right)
  · intro group none
    cases none
  · intro groups before way own
    split
    · rename_i i found
      obtain ⟨inside, here, -⟩ := Array.findIdx?_eq_some_iff_getElem.mp found
      intro other listed fragments among
      obtain ⟨k, stored⟩ := Array.mem_iff_getElem?.mp (Array.mem_toList_iff.mp listed)
      rw [Array.getElem?_modify] at stored
      split at stored
      · rename_i same
        obtain ⟨old, there, rfl⟩ := Option.map_eq_some_iff.mp stored
        rw [← same, Array.getElem?_eq_getElem inside] at there
        cases there
        rcases List.mem_append.mp among with known | new
        · exact before _ (Array.mem_toList_iff.mpr (Array.getElem_mem inside)) fragments known
        · exact ⟨way, own, (eq_of_beq here).symm, (List.mem_singleton.mp new).symm⟩
      · exact before other (Array.mem_toList_iff.mpr (Array.mem_of_getElem? stored)) fragments among
    · intro other listed fragments among
      rw [Array.toList_push, List.mem_append, List.mem_singleton] at listed
      rcases listed with known | rfl
      · exact before other known fragments among
      · exact ⟨way, own, rfl, (List.mem_singleton.mp among).symm⟩

section

variable {t : Tables} {m : Machine} {known : Fragment → Prop} {stack : Stack}

theorem Fits.known_of_between (fits : Fits t m known stack) {top id : Nat}
    {fragments : List Fragment} (between : stack.Between top id fragments) :
    ∀ f ∈ fragments, known f := by
  induction between with
  | nothing =>
      intro f none
      cases none
  | further _ linked ih =>
      intro f listed
      rcases List.mem_cons.mp listed with rfl | later
      · exact (fits.links _ _ linked).fragment
      · exact ih f later

theorem Fits.lt_size_of_between (fits : Fits t m known stack) {top id : Nat}
    {fragments : List Fragment} (between : stack.Between top id fragments)
    (inside : top < stack.size) : id < stack.size := by
  cases between with
  | nothing => exact inside
  | further _ linked => exact (fits.links _ _ linked).below

/-- An item on top of some fragments was under way below them and has read all of them, or it was
begun among them and has read those from there on. -/
theorem Fits.exists_advances (fits : Fits t m known stack) {top id : Nat}
    {fragments : List Fragment} (between : stack.Between top id fragments) {last : Nat}
    (held : (m.stateAt (stack.nodeAt top).state).Holds last) :
    (∃ before, (m.stateAt (stack.nodeAt id).state).Holds before ∧
        t.Advances before ((solid fragments).map Fragment.symbol) last) ∨
      ∃ earlier symbol later, (solid fragments).map Fragment.symbol = earlier ++ symbol :: later ∧
        ∃ b ∈ t.begins.getD symbol [], t.Advances b.2 later last := by
  induction between with
  | nothing => exact .inl ⟨last, held, rfl⟩
  | @further id fragments link _ linked ih =>
      have leads := (fits.links id link linked).leads
      rw [Leads] at leads
      rw [solid, List.filter_cons]
      cases isExtra : link.fragment.extra with
      | true =>
          rw [isExtra, if_pos rfl] at leads
          rw [leads]
          exact ih
      | false =>
          rw [isExtra, if_neg Bool.false_ne_true] at leads
          rw [Bool.not_false, if_pos rfl, List.map_cons]
          rcases ih with ⟨before, under, advances⟩ | ⟨earlier, symbol, later, split, begun⟩
          · obtain ⟨follow, listed⟩ := under
            rw [leads] at listed
            rcases Tables.mem_kernelAfter listed with ⟨first, below, next, rfl⟩ | ⟨b, among, rfl⟩
            · exact .inl ⟨first, below, next, advances⟩
            · exact .inr ⟨[], link.fragment.symbol, _, rfl, b, among, advances⟩
          · exact .inr ⟨link.fragment.symbol :: earlier, symbol, later,
              congrArg (link.fragment.symbol :: ·) split, begun⟩

/-- The fragments that are taken together at the end of an item are what one of its productions
reads. -/
theorem Fits.exists_production (fits : Fits t m known stack) (sound : m.Sound t)
    {table : ItemTable} (source : t.ItemsFrom table) {top id : Nat} {fragments : List Fragment}
    (between : stack.Between top id fragments) {last : Nat}
    (held : (m.stateAt (stack.nodeAt top).state).Holds last) (complete : (t.item last).next = none)
    (counted : (solid fragments).length = (t.item last).length) :
    ∃ p ∈ t.productions.toList, p.steps.map Step.symbol = (solid fragments).map Fragment.symbol ∧
      ItemAt table p p.steps.reverse [] last := by
  -- Wherever the item came from, it has read the last fragments, and it reads as many as there are.
  have reads {p : Production} {done rest : List Step} {first : Nat} {symbols : List Nat}
      (itemAt : ItemAt table p done rest first) (advances : t.Advances first symbols last) :
      ∃ read, read.map Step.symbol = symbols ∧ p.steps = done.reverse ++ read ∧
        (t.item last).length = p.steps.length ∧ ItemAt table p (read.reverse ++ done) [] last := by
    obtain ⟨read, more, rfl, symbols, there⟩ := source.itemAt_of_advances itemAt advances
    obtain ⟨item, -, stored, -, -, -, length, next⟩ := source.valid.exists_item there
    rw [source.item_eq stored] at complete ⊢
    rw [complete] at next
    cases more with
    | cons step others => cases next
    | nil =>
        refine ⟨read, symbols, ?_, length, there⟩
        rw [there.steps_eq]
        simp
  rcases fits.exists_advances between held with
    ⟨before, under, advances⟩ | ⟨earlier, symbol, later, split, b, begun, advances⟩
  · obtain ⟨kernel, reachable, same⟩ := sound.states (fits.state id)
    rw [same] at under
    obtain ⟨p, among, done, rest, itemAt⟩ := source.exists_itemAt reachable under
    obtain ⟨read, symbols, steps, length, there⟩ := reads itemAt advances
    have lengths := congrArg List.length symbols
    rw [List.length_map, List.length_map, counted, length, steps, List.length_append,
      List.length_reverse] at lengths
    have none : done = [] := List.eq_nil_of_length_eq_zero (by omega)
    rw [none, List.reverse_nil, List.nil_append] at steps
    rw [none, List.append_nil, ← steps] at there
    rw [← steps] at symbols
    exact ⟨p, among, symbols, there⟩
  · obtain ⟨p, among, step, rest, steps, reads', itemAt⟩ := source.begins begun
    obtain ⟨read, symbols, split', length, there⟩ := reads itemAt advances
    have lengths := congrArg List.length split
    rw [List.length_map, counted, length, split', List.length_append, List.length_append,
      List.length_reverse, List.length_cons, List.length_cons, ← symbols,
      List.length_map] at lengths
    have none : earlier = [] := List.eq_nil_of_length_eq_zero (by simp at lengths; omega)
    refine ⟨p, among, ?_, ?_⟩
    · rw [split, none, split', List.map_append, symbols, List.reverse_singleton, List.map_singleton,
        reads']
      rfl
    · rw [split']
      simpa using there

end

end Stack

end SourceAtlas.Grammar
