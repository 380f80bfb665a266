/-
# No name in a parsed file starts with a slash

A node of a tree covers the text of its fragment, which starts with the first character of its first
token. A node in the role of a name is made of a symbol that can open a name, so this character is
no slash. That holds at any depth, also where phrases that make no node pass their roles on.
-/

import Mathlib.Data.String.Basic
import SourceAtlas.Proofs.Grammar.Derivation
import SourceAtlas.Proofs.Grammar.Starts
import SourceAtlas.Proofs.Syntax.Naming

namespace SourceAtlas.Grammar

open Syntax (NoSlashFirst)

namespace Source

/-- Counting on from a byte. -/
def countBytes (state : Nat × Array Nat) (c : Char) : Nat × Array Nat :=
  (state.1 + c.utf8Size, state.2.push (state.1 + c.utf8Size))

theorem getElem?_foldl_countBytes_of_lt (chars : List Char) (state : Nat × Array Nat) {k : Nat}
    (inside : k < state.2.size) : (chars.foldl countBytes state).2[k]? = state.2[k]? := by
  induction chars generalizing state with
  | nil => rfl
  | cons c rest ih =>
      have later : k < (countBytes state c).2.size := by
        rw [countBytes, Array.size_push]
        exact Nat.lt_succ_of_lt inside
      rw [List.foldl_cons, ih _ later, countBytes, Array.getElem?_push_lt inside,
        Array.getElem?_eq_getElem inside]

theorem getElem?_foldl_countBytes (chars : List Char) (state : Nat × Array Nat) {k : Nat}
    (inside : k < chars.length) :
    (chars.foldl countBytes state).2[state.2.size + k]? =
      some (state.1 + String.utf8Len (chars.take (k + 1))) := by
  induction chars generalizing state k with
  | nil => cases inside
  | cons c rest ih =>
      rw [List.foldl_cons, List.take_succ_cons, String.utf8Len_cons]
      have size : (countBytes state c).2.size = state.2.size + 1 := Array.size_push _
      cases k with
      | zero =>
          rw [getElem?_foldl_countBytes_of_lt rest _ (by omega), countBytes, Nat.add_zero,
            Array.getElem?_push_size, List.take_zero, String.utf8Len_nil, Nat.zero_add]
      | succ k =>
          have later := ih (countBytes state c) (Nat.lt_of_succ_lt_succ inside)
          rw [size, Nat.add_assoc, Nat.add_comm 1 k] at later
          rw [later, countBytes, Nat.add_assoc, Nat.add_comm c.utf8Size]

/-- The byte at an offset is the size of the text before it. -/
theorem bytesOf_getD {chars : List Char} {k : Nat} (inside : k ≤ chars.length) :
    (bytesOf chars).getD k 0 = String.utf8Len (chars.take k) := by
  rw [Array.getD_eq_getD_getElem?,
    show bytesOf chars = (chars.foldl countBytes (0, #[0])).2 from rfl]
  cases k with
  | zero =>
      rw [getElem?_foldl_countBytes_of_lt chars _ Nat.one_pos]
      rfl
  | succ k =>
      have counted := getElem?_foldl_countBytes chars (0, #[0]) inside
      rw [show (#[0] : Array Nat).size + k = k + 1 from Nat.add_comm 1 k] at counted
      rw [counted, Option.getD_some, Nat.zero_add]

/-- A piece of a text starts with the character at its start. -/
theorem noSlashFirst_slice {text : List Char} {span : Span}
    (start : (ofText text).NoSlashAt span.start) : NoSlashFirst ((ofText text).slice span) := by
  obtain ⟨c, stored, other⟩ := start
  change text.toArray[span.start]? = some c at stored
  rw [List.getElem?_toArray] at stored
  obtain ⟨inside, rfl⟩ := List.getElem?_eq_some_iff.mp stored
  rw [NoSlashFirst, slice, String.Pos.Raw.extract]
  split
  · decide
  · rw [String.toList_ofList]
    generalize (⟨(ofText text).bytes.getD span.stop 0⟩ : String.Pos.Raw) = stop
    have split : (ofText text).text.toList = text.take span.start ++ text.drop span.start := by
      rw [List.take_append_drop]
      exact String.toList_ofList
    -- The byte where the piece starts is counted over the characters before it.
    have byte : (ofText text).bytes.getD span.start 0 =
        String.utf8Len (text.take span.start) + 0 := bytesOf_getD (Nat.le_of_lt inside)
    rw [split, show (0 : String.Pos.Raw) = ⟨0⟩ from rfl,
      String.Pos.Raw.extract.go₁_append_right _ _ 0 _ stop byte,
      List.drop_eq_getElem_cons inside, String.Pos.Raw.extract.go₂]
    split
    · intro none
      cases none
    · intro slash
      exact other (Option.some.inj slash)

end Source

/-- Nodes in a row, of which those that come to be in the role of a name do not start with a slash,
and no name inside them does. -/
def Parts.NamesWell (role : Option String) : Parts → Prop
  | .none => True
  | .node tree => tree.NamesWell ∧ (role = some "name" → NoSlashFirst tree.text)
  | .aside tree => tree.NamesWell ∧ tree.info.field = Option.none
  | .both first second => first.NamesWell role ∧ second.NamesWell role
  | .inRole inner parts => parts.NamesWell (role <|> some inner)

theorem Parts.NamesWell.before {role : Option String} {parts : Parts} (well : parts.NamesWell role)
    {rest : List Tree} (others : ∀ t ∈ rest, t.NamedWell ∧ t.NamesWell) :
    ∀ t ∈ parts.before role rest, t.NamedWell ∧ t.NamesWell := by
  induction parts generalizing role rest with
  | none => exact others
  | node tree =>
      obtain ⟨info, children⟩ := tree
      intro t listed
      rcases List.mem_cons.mp listed with rfl | later
      · exact ⟨well.2, well.1.of_children_eq rfl⟩
      · exact others t later
  | aside tree =>
      intro t listed
      rcases List.mem_cons.mp listed with rfl | later
      · refine ⟨fun named => ?_, well.1⟩
        rw [well.2] at named
        cases named
      · exact others t later
  | both first second ihFirst ihSecond => exact ihFirst well.1 (ihSecond well.2 others)
  | inRole inner parts ih => exact ih well others

namespace Task

/-- A fragment holds no name that starts with a slash, and can stand for a name itself if its symbol
can open one. -/
structure NamesWell (task : Task) (opens : Nat → Prop) (f : Fragment) : Prop where
  parts : ∀ role, role ≠ some "name" → f.parts.NamesWell role
  start : opens f.symbol → task.source.NoSlashAt f.span.start
  named : opens f.symbol → task.tables.shown? f.symbol = none → f.parts.NamesWell (some "name")

variable {task : Task} {opens : Nat → Prop} {text : List Char}

theorem NamesWell.tree {f : Fragment} (well : task.NamesWell opens f) (shown : Shown) :
    (f.tree task.source shown).NamesWell := by
  apply Syntax.Tree.namesWell_node
  exact (well.parts none (by decide)).before (List.forall_mem_nil _)

/-- A node over a fragment that can open a name does not start with a slash. -/
theorem NamesWell.noSlashFirst {f : Fragment} (well : task.NamesWell opens f)
    (source : task.source = .ofText text) (open_ : opens f.symbol) (shown : Shown) :
    NoSlashFirst (f.tree task.source shown).text := by
  have start := well.start open_
  rw [source] at start ⊢
  exact Source.noSlashFirst_slice start

theorem NamesWell.asideParts {f : Fragment} (well : task.NamesWell opens f) (role : Option String) :
    (task.tables.asideParts task.source f).NamesWell role := by
  rw [Tables.asideParts]
  split
  · exact ⟨well.tree _, rfl⟩
  · trivial

/-- What a fragment adds to a node is well if the fragment can open a name wherever it has the role
of one. -/
theorem NamesWell.stepParts {f : Fragment} (well : task.NamesWell opens f)
    (source : task.source = .ofText text) {step : Step} {role : Option String}
    (named : (role <|> step.role) = some "name" → opens f.symbol) :
    (task.tables.stepParts task.source step f).NamesWell role := by
  obtain ⟨inner, kept, made⟩ : ∃ inner : Parts, inner.NamesWell (role <|> step.role) ∧
      task.tables.stepParts task.source step f =
        step.role.elim inner fun name => .inRole name inner := by
    rw [Tables.stepParts]
    cases visible : step.shown <|> task.tables.shown? f.symbol with
    | some shown =>
        refine ⟨.node (f.tree task.source shown), ⟨well.tree _, ?_⟩, ?_⟩
        · intro isName
          exact well.noSlashFirst source (named isName) _
        · cases step.role <;> rfl
    | none =>
        refine ⟨f.parts, ?_, ?_⟩
        · by_cases isName : (role <|> step.role) = some "name"
          · rw [isName]
            apply well.named (named isName)
            cases own : step.shown with
            | none =>
                rw [own] at visible
                exact visible
            | some shown =>
                rw [own] at visible
                cases visible
          · exact well.parts _ isName
        · cases step.role <;> rfl
  rw [made]
  cases own : step.role with
  | none =>
      rw [own] at kept
      cases role <;> exact kept
  | some name =>
      rw [own] at kept
      exact kept

/-- What fragments add to a node is well if those in the role of a name can open one. -/
theorem namesWell_partsOf (source : task.source = .ofText text) {role : Option String}
    {children : List Fragment} (well : ∀ f ∈ children, task.NamesWell opens f)
    {written steps : List Step} (looks : written.map Step.look = steps.map Step.look)
    (symbols : steps.map Step.symbol = (Stack.solid children).map Fragment.symbol)
    (named : ∀ step ∈ steps, (role <|> step.role) = some "name" → opens step.symbol) :
    (task.tables.partsOf task.source written children).NamesWell role := by
  -- The steps of the item and those that were read agree in their looks, not in their symbols.
  induction children generalizing written steps with
  | nil =>
      rw [Tables.partsOf]
      trivial
  | cons f rest ih =>
      have later : ∀ f ∈ rest, task.NamesWell opens f :=
        fun f among => well f (List.mem_cons_of_mem _ among)
      rw [Tables.partsOf.eq_def]
      dsimp only
      rw [Stack.solid, List.filter_cons] at symbols
      cases extra : f.extra with
      | true =>
          rw [extra] at symbols
          exact ⟨(well f List.mem_cons_self).asideParts role, ih later looks symbols named⟩
      | false =>
          rw [extra, Bool.not_false, if_pos rfl, List.map_cons] at symbols
          rw [if_neg Bool.false_ne_true]
          cases steps with
          | nil => cases symbols
          | cons step others =>
              cases written with
              | nil => cases looks
              | cons first more =>
                  rw [List.map_cons, List.map_cons] at looks
                  rw [List.map_cons] at symbols
                  obtain ⟨look, looks⟩ := List.cons.inj looks
                  obtain ⟨symbol, symbols⟩ := List.cons.inj symbols
                  refine ⟨(well f List.mem_cons_self).stepParts source fun isName => ?_,
                    ih later looks symbols
                      fun step among => named step (List.mem_cons_of_mem _ among)⟩
                  rw [show first.role = step.role from congrArg Prod.snd look] at isName
                  rw [← symbol]
                  exact named step List.mem_cons_self isName

variable (keeps : task.tables.KeepsNames opens) (tells : task.tables.TellsNames opens)
  (source : task.source = .ofText text)
include keeps tells source

/-- All that can come up when a text is read is well. -/
theorem Derived.namesWell {f : Fragment} (derived : task.Derived f) : task.NamesWell opens f := by
  induction derived with
  | @token token symbol lead extra stands readAs =>
      refine ⟨fun _ _ => trivial, fun open_ => ?_, fun _ _ => trivial⟩
      obtain ⟨state, i, found⟩ := stands
      apply tells.noSlashAt_of_token? found
      rcases readAs with rfl | ⟨keyword, -⟩
      · exact .inl open_
      · exact .inr keyword
  | @phrase item written children reads _ ih =>
      obtain ⟨p, listed, head, looks, symbols⟩ := reads.production
      obtain ⟨first, rest, rfl, solid⟩ := reads.first
      refine ⟨fun role other => ?_, fun open_ => ?_, fun open_ unseen => ?_⟩
      · -- No name comes from outside, so the steps alone say which parts are names.
        refine namesWell_partsOf source ih looks symbols fun step part isName => ?_
        apply keeps.names p listed step part
        cases role with
        | none => exact isName
        | some outer => exact absurd isName other
      · -- A phrase starts where its first part starts, and that part can open a name too.
        rw [Stack.solid, List.filter_cons, solid, Bool.not_false, if_pos rfl,
          List.map_cons] at symbols
        cases steps : p.steps with
        | nil =>
            rw [steps] at symbols
            cases symbols
        | cons step others =>
            rw [steps] at symbols
            apply (ih first List.mem_cons_self).start
            rw [← (List.cons.inj symbols).1]
            change opens item.head at open_
            rw [head] at open_
            exact keeps.head p listed open_ step (by rw [steps]; rfl)
      · -- A phrase that makes no node hands its role on to all its parts.
        refine namesWell_partsOf source ih looks symbols fun step part _ => ?_
        change opens item.head at open_
        change task.tables.shown? item.head = none at unseen
        rw [head] at open_ unseen
        exact keeps.all p listed open_ unseen step part

/-- No name in the tree of a text starts with a slash. -/
theorem namesWell_of_tree? {table : ItemTable} (items : task.tables.ItemsFrom table) {tree : Tree}
    (found : task.tree? = some tree) : tree.NamesWell := by
  obtain ⟨fragments, derived, children⟩ := exists_derived_of_tree? items found
  have whole : (task.wholeParts fragments).NamesWell none := by
    clear children
    induction fragments with
    | nil => trivial
    | cons f rest ih =>
        refine ⟨?_, ih fun g later => derived g (List.mem_cons_of_mem _ later)⟩
        have well := (derived f List.mem_cons_self).namesWell keeps tells source
        split
        · exact well.asideParts none
        · exact well.parts none (by decide)
  obtain ⟨info, trees⟩ := tree
  apply Syntax.Tree.namesWell_node
  rw [show trees = _ from children]
  exact whole.before (List.forall_mem_nil _)

end Task

/-! ## The languages -/

namespace Dialect

/-- The phrases with which a name can start. -/
def namePhrases (d : Dialect) : List String :=
  ["_destructuring_pattern", "_module_export_name", "_property_name", "_reserved_identifier",
    "array_pattern", "computed_property_name", "nested_identifier", "object_pattern", "string"] ++
    (if d.hasMarkup then ["_jsx_element_name", "_jsx_identifier", "jsx_namespace_name"] else []) ++
    d.typed ["_import_identifier", "_type_identifier", "nested_type_identifier", "predefined_type",
      "rest_pattern"]

variable (d : Dialect)

theorem keepsTo_namePhrases : d.language.keepsTo d.namePhrases = true := by
  cases d <;> decide +kernel

theorem mem_rules_of_mem_namePhrases :
    ∀ name ∈ d.namePhrases, name ∈ d.language.rules.map Prod.fst := by
  cases d <;> decide +kernel

theorem hides_of_mem_inlined : ∀ name ∈ d.language.inlined, d.language.hides name = true := by
  cases d <;> decide +kernel

theorem not_isRepetitionName_of_mem_namePhrases :
    ∀ name ∈ d.namePhrases, ¬ IsRepetitionName name := by
  have starts : ∀ name ∈ d.namePhrases, name.toList.take 4 ≠ ['_', 'r', 'e', 'p'] := by
    cases d <;> decide +kernel
  rintro name listed ⟨number, rfl⟩
  apply starts _ listed
  rw [String.toList_append]
  rfl

theorem exists_rules_eq : ∃ rest, d.language.rules = moduleRules d ++ rest := by
  change ∃ rest, d.rules = moduleRules d ++ rest
  simp only [rules, List.append_assoc]
  exact ⟨_, rfl⟩

/-- The first token of each language is the line that names the interpreter. -/
theorem getElem?_terminals_zero :
    d.language.tables.terminals[0]? = some (.lexeme .interpreterLine) := by
  obtain ⟨rest, rules⟩ : ∃ rest, d.language.rules = ("program",
      .seq [.maybe (.lexeme .interpreterLine), .many (.ref "statement")]) :: rest := by
    obtain ⟨rest, rules⟩ := d.exists_rules_eq
    rw [rules, moduleRules]
    exact ⟨_, rfl⟩
  rw [Language.tables_terminals, Language.getElem?_terminals_zero, Language.plainRules_eq, rules,
    plainEach_cons]
  rfl

theorem identifier_mem_terminals : .lexeme .identifier ∈ d.language.tables.terminals.toList := by
  have listed : ("namespace_import", .seq ["*", "as", .name]) ∈ d.language.rules := by
    obtain ⟨rest, rules⟩ := d.exists_rules_eq
    rw [rules, moduleRules]
    simp only [List.mem_append, List.mem_cons, true_or, or_true]
  obtain ⟨met, flat⟩ := Language.exists_mem_plainRules listed
  rw [Language.tables_terminals]
  apply Language.mem_terminals.mpr
  refine .inl ⟨_, flat, ?_⟩
  change Terminal.lexeme .identifier ∈ [.literal "*", .literal "as", .lexeme .identifier]
  decide

theorem namesKept : d.language.NamesKept d.namePhrases where
  keeps := d.keepsTo_namePhrases
  listed := d.mem_rules_of_mem_namePhrases
  apart := d.not_isRepetitionName_of_mem_namePhrases
  inlined := d.hides_of_mem_inlined
  first t stored := by
    rw [d.getElem?_terminals_zero] at stored
    cases stored
    rfl

end Dialect

/-- No name in a parsed file starts with a slash. -/
theorem namesWell_of_parse? {d : Dialect} {text : List Char} {tree : Tree}
    (found : parse? d text = some tree) : tree.NamesWell := by
  have tables : d.tables = d.language.tables := by
    cases d with
    | typescript => rw [Dialect.tables, typedTables, Thunk.get]
    | tsx => rw [Dialect.tables, typedMarkupTables, Thunk.get]
    | javascript => rw [Dialect.tables, plainTables, Thunk.get]
  rw [parse?, tables] at found
  have keeps := d.namesKept.keepsNames
  have tells := d.namesKept.tellsNames d.identifier_mem_terminals
  have items := d.language.itemsFrom_tables
  generalize d.language.tables = t at found keeps tells items
  exact Task.namesWell_of_tree? keeps tells rfl items found

end SourceAtlas.Grammar
