/-
# What a name can start with

Which symbols can open a name is a property of the rules of a language: of the rules that are named,
of the rules with which those start, and so on. It carries over to the productions, also through
phrases that are replaced by their rules, so a parser meets such symbols only where names start.
-/

import SourceAtlas.Grammar.Fragment
import SourceAtlas.Grammar.Language
import SourceAtlas.Proofs.Grammar.Outlines
import SourceAtlas.Proofs.Grammar.Productions

namespace SourceAtlas.Grammar

section Replace

variable {opens : Nat → Prop}

/-- A sequence starts with a symbol that can open a name. -/
def HeadOpens (opens : Nat → Prop) (steps : List Step) : Prop :=
  ∀ step, steps.head? = some step → opens step.symbol

/-- All symbols of a sequence can open a name. -/
def AllOpen (opens : Nat → Prop) (steps : List Step) : Prop := ∀ step ∈ steps, opens step.symbol

/-- All symbols in the role of a name can open a name. -/
def NamesOpen (opens : Nat → Prop) (steps : List Step) : Prop :=
  ∀ step ∈ steps, step.role = some "name" → opens step.symbol

/-- Phrases that are replaced by their rules are open in all their parts if they can open a name. -/
structure RulesOpen (opens : Nat → Prop) (rule : Nat → Option (List Sequence)) : Prop where
  names : ∀ {symbol : Nat} {found : List Sequence}, rule symbol = some found →
    ∀ s ∈ found, NamesOpen opens s.steps
  all : ∀ {symbol : Nat} {found : List Sequence}, rule symbol = some found → opens symbol →
    ∀ s ∈ found, AllOpen opens s.steps ∧ s.steps ≠ []

/-- What stands in place of a step are the steps of the rule, in the role of the step. -/
theorem map_steps_replacement (step : Step) (s : Sequence) :
    (step.replacement s).steps.map (fun inner => (inner.symbol, inner.role)) =
      s.steps.map fun inner => (inner.symbol, step.role <|> inner.role) := by
  rw [Step.replacement]
  rw [Sequence.map_steps_mapLast, List.map_map]
  · rfl
  · intro last
    rfl

theorem of_mem_replacement {step inner : Step} {s : Sequence}
    (listed : inner ∈ (step.replacement s).steps) :
    ∃ old ∈ s.steps, inner.symbol = old.symbol ∧ inner.role = (step.role <|> old.role) := by
  have among := List.mem_map_of_mem (f := fun inner : Step => (inner.symbol, inner.role)) listed
  rw [map_steps_replacement] at among
  obtain ⟨old, known, same⟩ := List.mem_map.mp among
  exact ⟨old, known, (congrArg Prod.fst same).symm, (congrArg Prod.snd same).symm⟩

theorem replacement_ne_nil (step : Step) {s : Sequence} (filled : s.steps ≠ []) :
    (step.replacement s).steps ≠ [] := by
  intro none
  have lengths := congrArg List.length (map_steps_replacement step s)
  rw [none, List.length_map, List.length_map] at lengths
  exact filled (List.eq_nil_of_length_eq_zero lengths.symm)

variable {rule : Nat → Option (List Sequence)}

theorem steps_of_mem_replaceSteps_zero {steps : List Step} {r : Sequence}
    (listed : r ∈ replaceSteps rule 0 steps) : r.steps = steps := by
  cases steps with
  | nil =>
      rw [replaceSteps] at listed
      rw [List.mem_singleton.mp listed]
  | cons step rest =>
      rw [replaceSteps] at listed
      · rw [List.mem_singleton.mp listed]
      · intro none
        cases none

theorem steps_of_mem_replaceSteps_nil {fuel : Nat} {r : Sequence}
    (listed : r ∈ replaceSteps rule fuel []) : r.steps = [] := by
  rw [replaceSteps] at listed
  rw [List.mem_singleton.mp listed]

/-- What a step leaves: the step as it is, or what remains of its rule. -/
def Leaves (rule : Nat → Option (List Sequence)) (fuel : Nat) (step : Step) (first : List Step) :
    Prop :=
  first = [step] ∨ ∃ found, rule step.symbol = some found ∧ ∃ s ∈ found,
    ∃ a ∈ replaceSteps rule fuel (step.replacement s).steps, first = a.steps

theorem of_mem_replaceSteps_cons {fuel : Nat} {step : Step} {rest : List Step} {r : Sequence}
    (listed : r ∈ replaceSteps rule (fuel + 1) (step :: rest)) :
    ∃ first, ∃ others ∈ replaceSteps rule (fuel + 1) rest, r.steps = first ++ others.steps ∧
      Leaves rule fuel step first := by
  rw [replaceSteps] at listed
  split at listed
  · obtain ⟨others, later, rfl⟩ := List.mem_map.mp listed
    exact ⟨[step], others, later, rfl, .inl rfl⟩
  · rename_i found known
    obtain ⟨s, among, inner⟩ := List.mem_flatMap.mp listed
    obtain ⟨a, here, inner⟩ := List.mem_flatMap.mp inner
    obtain ⟨others, later, rfl⟩ := List.mem_map.mp inner
    exact ⟨a.steps, others, later, rfl, .inr ⟨found, known, s, among, a, here, rfl⟩⟩

theorem AllOpen.append {first second : List Step} (early : AllOpen opens first)
    (late : AllOpen opens second) : AllOpen opens (first ++ second) := by
  intro step listed
  exact (List.mem_append.mp listed).elim (early step) (late step)

theorem NamesOpen.append {first second : List Step} (early : NamesOpen opens first)
    (late : NamesOpen opens second) : NamesOpen opens (first ++ second) := by
  intro step listed
  exact (List.mem_append.mp listed).elim (early step) (late step)

theorem AllOpen.replacement {s : Sequence} (all : AllOpen opens s.steps) (step : Step) :
    AllOpen opens (step.replacement s).steps := by
  intro inner listed
  obtain ⟨old, known, symbol, -⟩ := of_mem_replacement listed
  rw [symbol]
  exact all old known

variable (ruled : RulesOpen opens rule)
include ruled

/-- What a step leaves that can open a name are such steps. -/
theorem Leaves.allOpen {fuel : Nat}
    (below : ∀ {steps : List Step}, AllOpen opens steps → ∀ r ∈ replaceSteps rule fuel steps,
      AllOpen opens r.steps ∧ (steps ≠ [] → r.steps ≠ []))
    {step : Step} {first : List Step} (leaves : Leaves rule fuel step first)
    (here : opens step.symbol) : AllOpen opens first ∧ first ≠ [] := by
  rcases leaves with rfl | ⟨found, known, s, among, a, inner, rfl⟩
  · refine ⟨fun other single => ?_, List.cons_ne_nil _ _⟩
    rw [List.mem_singleton.mp single]
    exact here
  · obtain ⟨all, filled⟩ := ruled.all known here s among
    obtain ⟨inside, kept⟩ := below (all.replacement step) a inner
    exact ⟨inside, kept (replacement_ne_nil step filled)⟩

/-- Replacing steps that can open a name leaves such steps, and some of them. -/
theorem allOpen_replaceSteps (fuel : Nat) {steps : List Step} (all : AllOpen opens steps) :
    ∀ r ∈ replaceSteps rule fuel steps,
      AllOpen opens r.steps ∧ (steps ≠ [] → r.steps ≠ []) := by
  induction fuel generalizing steps with
  | zero =>
      intro r listed
      rw [steps_of_mem_replaceSteps_zero listed]
      exact ⟨all, id⟩
  | succ fuel ihFuel =>
      induction steps with
      | nil =>
          intro r listed
          rw [steps_of_mem_replaceSteps_nil listed]
          exact ⟨all, id⟩
      | cons step rest ih =>
          intro r listed
          obtain ⟨first, others, later, same, leaves⟩ := of_mem_replaceSteps_cons listed
          have front := leaves.allOpen ruled ihFuel (all step List.mem_cons_self)
          rw [same]
          refine ⟨front.1.append (ih (fun other below => all other (List.mem_cons_of_mem _ below))
            others later).1, fun _ none => ?_⟩
          exact front.2 (List.append_eq_nil_iff.mp none).1

/-- Replacing steps keeps to the symbols that can open a name at the start. -/
theorem headOpens_replaceSteps (fuel : Nat) {steps : List Step} (head : HeadOpens opens steps) :
    ∀ r ∈ replaceSteps rule fuel steps, HeadOpens opens r.steps := by
  cases fuel with
  | zero =>
      intro r listed
      rw [steps_of_mem_replaceSteps_zero listed]
      exact head
  | succ fuel =>
      cases steps with
      | nil =>
          intro r listed
          rw [steps_of_mem_replaceSteps_nil listed]
          exact head
      | cons step rest =>
          intro r listed
          obtain ⟨first, others, later, same, leaves⟩ := of_mem_replaceSteps_cons listed
          have front := leaves.allOpen ruled (allOpen_replaceSteps ruled fuel) (head step rfl)
          intro other isFirst
          rw [same] at isFirst
          cases first with
          | nil => exact absurd rfl front.2
          | cons one more =>
              cases isFirst
              exact front.1 _ List.mem_cons_self

/-- Replacing steps keeps to the symbols that can open a name in the role of a name. -/
theorem namesOpen_replaceSteps (fuel : Nat) {steps : List Step} (names : NamesOpen opens steps) :
    ∀ r ∈ replaceSteps rule fuel steps, NamesOpen opens r.steps := by
  induction fuel generalizing steps with
  | zero =>
      intro r listed
      rw [steps_of_mem_replaceSteps_zero listed]
      exact names
  | succ fuel ihFuel =>
      induction steps with
      | nil =>
          intro r listed
          rw [steps_of_mem_replaceSteps_nil listed]
          exact names
      | cons step rest ih =>
          intro r listed
          obtain ⟨first, others, later, same, leaves⟩ := of_mem_replaceSteps_cons listed
          have front : NamesOpen opens first := by
            rcases leaves with rfl | ⟨found, known, s, among, a, inner, rfl⟩
            · intro other single
              rw [List.mem_singleton.mp single]
              exact names step List.mem_cons_self
            · apply ihFuel _ a inner
              -- The role of the step counts, or else the role inside its rule.
              intro other listed role
              obtain ⟨old, part, symbol, roles⟩ := of_mem_replacement listed
              rw [role] at roles
              rw [symbol]
              cases outer : step.role with
              | none =>
                  rw [outer] at roles
                  exact ruled.names known s among old part roles.symm
              | some name =>
                  rw [outer] at roles
                  have here := names step List.mem_cons_self (outer.trans roles.symm)
                  exact (ruled.all known here s among).1 old part
          rw [same]
          exact front.append
            (ih (fun other below => names other (List.mem_cons_of_mem _ below)) others later)

end Replace

/-! ## Rules and productions -/

/-- Whether a token can open a name: all such tokens start with another character than a slash. -/
def Terminal.opensName : Terminal → Bool
  | .literal text | .named _ text => text.toList.head?.any (· != '/')
  | .lexeme .identifier | .lexeme .privateName | .lexeme .number | .lexeme .hyphenatedName => true
  | .lexeme _ | .endOfText => false

def RuleSymbol.opensName (opening : List String) : RuleSymbol → Bool
  | .token t => t.opensName
  | .phrase name => opening.contains name
  | .repetition => false

namespace Language

variable (language : Language) (opening : List String)

/-- Whether a phrase makes no node. -/
def hides (name : String) : Bool := name.startsWith "_" || language.unseen.contains name

/-- Whether the rules keep to phrases that can open a name: in the role of a name, at the start of
such phrases, and in all parts of those that make no node. -/
def keepsTo : Bool :=
  language.rules.all fun rule =>
    let outline := rule.2.outline false
    outline.names.all (RuleSymbol.opensName opening) &&
      (!opening.contains rule.1 ||
        (outline.heads.all (RuleSymbol.opensName opening) &&
          (!language.hides rule.1 ||
            (outline.symbols.all (RuleSymbol.opensName opening) && !outline.canBeEmpty))))

/-- The numbers of the symbols that can open a name. -/
def Opens (number : Nat) : Prop :=
  (∃ t, language.tables.terminals[number]? = some t ∧ t.opensName = true) ∨
    ∃ i phrase, number = language.tables.terminals.size + i ∧
      language.tables.phrases[i]? = some phrase ∧ phrase.name ∈ opening

/-- The rules of a language keep to phrases that can open a name, and so do the rules that its
parser makes of them. -/
structure NamesKept : Prop where
  keeps : language.keepsTo opening = true
  listed : ∀ name ∈ opening, name ∈ language.rules.map Prod.fst
  apart : ∀ name ∈ opening, ¬ IsRepetitionName name
  inlined : ∀ name ∈ language.inlined, language.hides name = true
  /-- A token that a language does not have gets the number of its first one. -/
  first : ∀ t, language.tables.terminals[0]? = some t → t.opensName = false

/-- The sequences of a phrase before any step is replaced. -/
def ownSequences (n : Numbering) (rule : String × Plain) : List Sequence :=
  distinct (rule.2.sequences n {} true)

/-- The sequences of the phrases that are replaced by their rules. -/
def replacing (rules : List (String × Plain)) (n : Numbering) : Std.HashMap Nat (List Sequence) :=
  .ofList (((rules.map fun rule => (rule.1, ownSequences n rule)).filter fun p =>
    language.inlined.contains p.1).map fun p => (n.phrase p.1, p.2))

/-- What is known of the phrase of a rule. -/
def phraseOf (rules : List (String × Plain)) (n : Numbering) (rule : String × Plain) :
    PhraseInfo where
  name := rule.1
  hidden := language.hides rule.1
  repetition := rule.1.startsWith "_repetition "
  sequences :=
    if language.inlined.contains rule.1 then []
    else distinct ((ownSequences n rule).flatMap fun s =>
      (replaceSteps (language.replacing rules n).get? 16 s.steps).map fun r =>
        { r with weight := joinWeights s.weight r.weight })

theorem getElem?_phrases (rules : List (String × Plain)) (n : Numbering) (i : Nat) :
    (language.phrases rules n)[i]? = rules[i]?.map (language.phraseOf rules n) := by
  rw [phrases]
  dsimp only
  rw [List.getElem?_toArray, List.getElem?_map, List.getElem?_map, Option.map_map]
  rfl

variable {language opening}

/-- The numbering of the tables. -/
theorem tables_terminals : language.tables.terminals =
    (language.numbering language.plainRules).terminals := by
  rw [Tables.terminals, tables_numbering]

theorem getElem?_tables_phrases (i : Nat) : language.tables.phrases[i]? =
    language.plainRules[i]?.map
      (language.phraseOf language.plainRules (language.numbering language.plainRules)) := by
  rw [tables_phrases, getElem?_phrases]

theorem opens_iff_of_getElem? {number : Nat} {t : Terminal}
    (stored : language.tables.terminals[number]? = some t) :
    language.Opens opening number ↔ t.opensName = true := by
  constructor
  · rintro (⟨found, there, opens⟩ | ⟨i, phrase, same, -⟩)
    · rw [stored] at there
      cases there
      exact opens
    · have := (Array.getElem?_eq_some_iff.mp stored).1
      omega
  · intro opens
    exact .inl ⟨t, stored, opens⟩

theorem getElem?_tables_terminal {t : Terminal} (listed : t ∈ language.tables.terminals.toList) :
    language.tables.terminals[language.tables.numbering.terminal t]? = some t := by
  rw [tables_terminals] at listed ⊢
  rw [tables_numbering]
  exact getElem?_terminal listed

/-- Only tokens that can open a name have the number of one. -/
theorem opensName_of_opens (kept : language.NamesKept opening) {t : Terminal}
    (opens : language.Opens opening (language.tables.numbering.terminal t)) :
    t.opensName = true := by
  by_cases listed : t ∈ language.tables.terminals.toList
  · exact (opens_iff_of_getElem? (getElem?_tables_terminal listed)).mp opens
  · -- A token that the language does not have is given the number of its first token.
    rw [tables_terminals] at listed
    rw [tables_numbering, terminal_of_notMem listed] at opens
    have filled : 0 < language.tables.terminals.size := by
      rw [tables_terminals, ← Array.length_toList]
      exact List.length_pos_of_mem (mem_terminals.mpr (.inr (.inr rfl)))
    have stored := Array.getElem?_eq_getElem filled
    have opens := (opens_iff_of_getElem? stored).mp opens
    rw [kept.first _ stored] at opens
    cases opens

/-- The number of a phrase tells whether it can open a name. -/
theorem opens_phrase_iff {name : String} (listed : name ∈ language.plainRules.map Prod.fst) :
    language.Opens opening ((language.numbering language.plainRules).phrase name) ↔
      name ∈ opening := by
  obtain ⟨behind, stored⟩ := @getElem?_phrase language language.plainRules name listed
  rw [List.getElem?_map] at stored
  obtain ⟨rule, there, rfl⟩ := Option.map_eq_some_iff.mp stored
  rw [Opens, tables_terminals]
  constructor
  · rintro (⟨found, there', -⟩ | ⟨i, phrase, same, known, opens⟩)
    · have := (Array.getElem?_eq_some_iff.mp there').1
      omega
    · rw [getElem?_tables_phrases, show i = (language.numbering language.plainRules).phrase rule.1 -
        (language.numbering language.plainRules).terminals.size by omega, there] at known
      cases known
      exact opens
  · intro opens
    refine .inr ⟨_, language.phraseOf language.plainRules (language.numbering language.plainRules)
      rule, (Nat.add_sub_cancel' behind).symm, ?_, opens⟩
    rw [getElem?_tables_phrases, there]
    rfl

/-- A symbol that can open a name is found under its number as one. -/
theorem opens_of_numbers (kept : language.NamesKept opening) {symbol : RuleSymbol}
    (opens : symbol.opensName opening = true) {number : Nat}
    (numbers : symbol.Numbers (language.numbering language.plainRules) number) :
    language.Opens opening number := by
  cases symbol with
  | token t =>
      obtain ⟨listed, rfl⟩ := numbers
      refine .inl ⟨t, ?_, opens⟩
      rw [tables_terminals]
      exact getElem?_terminal listed
  | phrase name =>
      have among : name ∈ opening := List.contains_iff_mem.mp opens
      rw [show number = _ from numbers]
      exact (opens_phrase_iff (mem_plainRules_names (kept.listed name among))).mpr among
  | repetition => cases opens

/-- What the rules say about the symbols that can open a name. -/
theorem NamesKept.of_mem_rules (kept : language.NamesKept opening) {rule : String × Rule}
    (listed : rule ∈ language.rules) :
    (∀ symbol ∈ (rule.2.outline false).names, symbol.opensName opening = true) ∧
      (rule.1 ∈ opening →
        (∀ symbol ∈ (rule.2.outline false).heads, symbol.opensName opening = true) ∧
          (language.hides rule.1 = true →
            (∀ symbol ∈ (rule.2.outline false).symbols, symbol.opensName opening = true) ∧
              (rule.2.outline false).canBeEmpty = false)) := by
  have all := List.all_eq_true.mp kept.keeps rule listed
  simp only [Bool.and_eq_true, Bool.or_eq_true, List.all_eq_true, Bool.not_eq_true'] at all
  obtain ⟨names, rest⟩ := all
  refine ⟨names, fun among => ?_⟩
  obtain ⟨heads, rest⟩ := rest.resolve_left (by simp [among])
  exact ⟨heads, fun hidden => rest.resolve_left (by simp [hidden])⟩

/-- The symbols in the role of a name, in all rules together. -/
def namedSymbols (language : Language) : List RuleSymbol :=
  language.rules.flatMap fun rule => (rule.2.outline false).names

/-- What the sequences of a flattened rule say about the symbols that can open a name. -/
structure SequencesOpen (language : Language) (opening : List String) (name : String)
    (steps : List Step) : Prop where
  names : NamesOpen (language.Opens opening) steps
  head : name ∈ opening → HeadOpens (language.Opens opening) steps
  all : name ∈ opening → language.hides name = true →
    AllOpen (language.Opens opening) steps ∧ steps ≠ []

theorem opens_of_numberedAmong (kept : language.NamesKept opening) {symbols : List RuleSymbol}
    (all : ∀ symbol ∈ symbols, symbol.opensName opening = true) {number : Nat}
    (numbered : NumberedAmong (language.numbering language.plainRules) symbols number) :
    language.Opens opening number := by
  obtain ⟨symbol, listed, numbers⟩ := numbered
  exact opens_of_numbers kept (all symbol listed) numbers

/-- In the sequences of a flattened rule, what is in the role of a name can open a name. -/
theorem namesOpen_of_flatRule (kept : language.NamesKept opening) {plain : Plain}
    (flat : FlatRule language.namedSymbols plain)
    (known : ∀ t ∈ plain.terminals, t ∈ (language.numbering language.plainRules).terminals.toList)
    {s : Sequence} (among : s ∈ plain.sequences (language.numbering language.plainRules) {} true) :
    NamesOpen (language.Opens opening) s.steps := by
  obtain ⟨part, met, rfl, within⟩ := flat
  have covers : (part.outline false).Covers _ s.steps :=
    part.covers_plain met (fun none => by cases none) known s among
  intro step listed role
  refine opens_of_numberedAmong kept (fun symbol named => ?_) (covers.names step listed role)
  obtain ⟨rule, own, inside⟩ := List.mem_flatMap.mp (within symbol named)
  exact (kept.of_mem_rules own).1 symbol inside

/-- The sequences of all rules keep to the symbols that can open a name. -/
theorem sequencesOpen (kept : language.NamesKept opening) {rule : String × Plain}
    (listed : rule ∈ language.plainRules) {s : Sequence}
    (among : s ∈ rule.2.sequences (language.numbering language.plainRules) {} true) :
    language.SequencesOpen opening rule.1 s.steps := by
  have within : ∀ rule ∈ language.rules, ∀ symbol ∈ (rule.2.outline false).names,
      symbol ∈ language.namedSymbols :=
    fun rule own symbol named => List.mem_flatMap.mpr ⟨rule, own, named⟩
  have known : ∀ t ∈ rule.2.terminals,
      t ∈ (language.numbering language.plainRules).terminals.toList :=
    fun t part => mem_terminals.mpr (.inl ⟨rule, listed, part⟩)
  rcases of_mem_plainRules within listed with
    ⟨own, written, name, met, plain⟩ | ⟨name, plain, flat, same⟩
  · have names := namesOpen_of_flatRule kept ⟨own.2, met, plain, within own written⟩ known among
    rw [plain] at among known
    have covers : (own.2.outline false).Covers _ s.steps :=
      own.2.covers_plain met (fun none => by cases none) known s among
    rw [name]
    refine ⟨names, fun opens step first => ?_, fun opens hides => ?_⟩
    · obtain ⟨heads, -⟩ := (kept.of_mem_rules written).2 opens
      exact opens_of_numberedAmong kept heads (covers.head step first)
    · obtain ⟨symbols, filled⟩ := ((kept.of_mem_rules written).2 opens).2 hides
      refine ⟨fun step part => opens_of_numberedAmong kept symbols (covers.symbols step part),
        fun none => ?_⟩
      rw [covers.empty none] at filled
      cases filled
  · -- A repetition cannot open a name, and its two halves play no role.
    refine ⟨?_, fun opens => absurd name (kept.apart _ opens),
      fun opens => absurd name (kept.apart _ opens)⟩
    rw [same] at among known
    rcases List.mem_append.mp among with halves | part
    · intro step listed role
      obtain ⟨first, early, later⟩ := List.mem_flatMap.mp halves
      obtain ⟨second, late, rfl⟩ := List.mem_map.mp later
      rw [List.mem_singleton.mp early, List.mem_singleton.mp late] at listed
      simp only [Sequence.append, List.singleton_append, List.mem_cons, List.not_mem_nil, or_false]
        at listed
      rcases listed with rfl | rfl <;> cases role
    · rcases List.mem_append.mp part with own | none
      · exact namesOpen_of_flatRule kept flat
          (fun t inside => known t (List.mem_append_right _ (List.mem_append_left _ inside))) own
      · cases none

theorem rulesOpen_replacing (kept : language.NamesKept opening) :
    RulesOpen (language.Opens opening)
      (language.replacing language.plainRules (language.numbering language.plainRules)).get? := by
  -- What is replaced are the sequences of a rule that makes no node.
  have origin {symbol : Nat} {found : List Sequence}
      (known : (language.replacing language.plainRules
        (language.numbering language.plainRules)).get? symbol = some found) :
      ∃ rule ∈ language.plainRules, rule.1 ∈ language.inlined ∧
        symbol = (language.numbering language.plainRules).phrase rule.1 ∧
        found = ownSequences (language.numbering language.plainRules) rule := by
    rw [Std.HashMap.get?_eq_getElem?, replacing] at known
    obtain ⟨pair, kept, same⟩ := List.mem_map.mp (mem_of_getElem?_ofList known)
    obtain ⟨own, inlined⟩ := List.mem_filter.mp kept
    obtain ⟨rule, listed, rfl⟩ := List.mem_map.mp own
    cases same
    exact ⟨rule, listed, List.contains_iff_mem.mp inlined, rfl, rfl⟩
  refine ⟨fun known s among => ?_, fun known opens s among => ?_⟩
  · obtain ⟨rule, listed, -, -, rfl⟩ := origin known
    exact (sequencesOpen kept listed (mem_distinct.mp among)).names
  · obtain ⟨rule, listed, inlined, rfl, rfl⟩ := origin known
    rw [opens_phrase_iff (List.mem_map_of_mem listed)] at opens
    exact (sequencesOpen kept listed (mem_distinct.mp among)).all opens (kept.inlined _ inlined)

/-- The productions of a phrase keep to the symbols that can open a name. -/
theorem sequencesOpen_of_mem_phrase (kept : language.NamesKept opening) {i : Nat}
    {phrase : PhraseInfo} (stored : language.tables.phrases[i]? = some phrase) {s : Sequence}
    (among : s ∈ phrase.sequences) :
    language.SequencesOpen opening phrase.name s.steps := by
  rw [getElem?_tables_phrases] at stored
  obtain ⟨rule, found, rfl⟩ := Option.map_eq_some_iff.mp stored
  have listed := List.mem_of_getElem? found
  rw [phraseOf] at among ⊢
  dsimp only at among ⊢
  split at among
  · cases among
  · obtain ⟨own, written, replaced⟩ := List.mem_flatMap.mp (mem_distinct.mp among)
    obtain ⟨r, left, rfl⟩ := List.mem_map.mp replaced
    have before := sequencesOpen kept listed (mem_distinct.mp written)
    have ruled := rulesOpen_replacing kept
    refine ⟨namesOpen_replaceSteps ruled 16 before.names r left,
      fun opens => headOpens_replaceSteps ruled 16 (before.head opens) r left,
      fun opens hides => ?_⟩
    obtain ⟨all, filled⟩ := before.all opens hides
    obtain ⟨inside, kept⟩ := allOpen_replaceSteps ruled 16 all r left
    exact ⟨inside, kept filled⟩

/-- A production is one of a whole text, or comes from a sequence of its phrase. -/
theorem of_mem_productions {p : Production} (listed : p ∈ language.tables.productions.toList) :
    (p.head = language.tables.whole ∧ ∀ step ∈ p.steps, step.role = none) ∨
      ∃ i phrase s, p.head = language.tables.terminals.size + i ∧
        language.tables.phrases[i]? = some phrase ∧ s ∈ phrase.sequences ∧ p.steps = s.steps := by
  rw [tables_productions, productions, productionsOf, List.mem_append] at listed
  rw [tables_whole, tables_terminals, tables_phrases, tables_numbering]
  rcases listed with whole | others
  · simp only [List.mem_cons, List.not_mem_nil, or_false] at whole
    rcases whole with rfl | rfl
    · exact .inl ⟨rfl, fun _ none => by cases none⟩
    · refine .inl ⟨rfl, fun step single => ?_⟩
      rw [List.mem_singleton.mp single]
  · obtain ⟨pair, stored, among⟩ := List.mem_flatMap.mp others
    obtain ⟨s, own, rfl⟩ := List.mem_map.mp among
    rw [List.mem_zipIdx_iff_getElem?, Array.getElem?_toList] at stored
    exact .inr ⟨pair.2, pair.1, s, rfl, stored, List.mem_of_mem_filter own, rfl⟩

theorem not_opens_whole : ¬ language.Opens opening language.tables.whole := by
  have size : language.tables.whole =
      language.tables.terminals.size + language.tables.phrases.size := language.tables_whole
  rintro (⟨t, stored, -⟩ | ⟨i, phrase, same, stored, -⟩)
  · have := (Array.getElem?_eq_some_iff.mp stored).1
    omega
  · have := (Array.getElem?_eq_some_iff.mp stored).1
    omega

end Language

/-- The productions of some tables keep to the symbols that can open a name: in the role of a name,
at the start of what can open a name, and in all parts of it if it makes no node. -/
structure Tables.KeepsNames (t : Tables) (opens : Nat → Prop) : Prop where
  names : ∀ p ∈ t.productions.toList, NamesOpen opens p.steps
  head : ∀ p ∈ t.productions.toList, opens p.head → HeadOpens opens p.steps
  all : ∀ p ∈ t.productions.toList, opens p.head → t.shown? p.head = none → AllOpen opens p.steps

/-- What the rules of a language say about names holds of its productions. -/
theorem Language.NamesKept.keepsNames {language : Language} {opening : List String}
    (kept : language.NamesKept opening) :
    language.tables.KeepsNames (language.Opens opening) := by
  -- A phrase that can open a name is one of those that are listed.
  have named {i : Nat} {phrase : PhraseInfo}
      (stored : language.tables.phrases[i]? = some phrase)
      (opens : language.Opens opening (language.tables.terminals.size + i)) :
      phrase.name ∈ opening := by
    rcases opens with ⟨t, there, -⟩ | ⟨j, other, same, there, among⟩
    · have := (Array.getElem?_eq_some_iff.mp there).1
      omega
    · rw [← show i = j by omega, stored] at there
      cases there
      exact among
  refine ⟨fun p listed => ?_, fun p listed opens => ?_, fun p listed opens unseen => ?_⟩
  · rcases of_mem_productions listed with ⟨-, roles⟩ | ⟨i, phrase, s, -, stored, own, steps⟩
    · intro step part role
      rw [roles step part] at role
      cases role
    · rw [steps]
      exact (sequencesOpen_of_mem_phrase kept stored own).names
  · rcases of_mem_productions listed with ⟨head, -⟩ | ⟨i, phrase, s, head, stored, own, steps⟩
    · exact absurd (head ▸ opens) not_opens_whole
    · rw [head] at opens
      rw [steps]
      exact (sequencesOpen_of_mem_phrase kept stored own).head (named stored opens)
  · rcases of_mem_productions listed with ⟨head, -⟩ | ⟨i, phrase, s, head, stored, own, steps⟩
    · exact absurd (head ▸ opens) not_opens_whole
    · rw [head] at opens unseen
      have hides : language.hides phrase.name = true := by
        rw [Tables.shown?, Array.getElem?_eq_none (Nat.le_add_right _ _), Nat.add_sub_cancel_left,
          stored] at unseen
        have hidden : phrase.hidden = true := by simpa using unseen
        rw [getElem?_tables_phrases] at stored
        obtain ⟨rule, -, rfl⟩ := Option.map_eq_some_iff.mp stored
        exact hidden
      rw [steps]
      exact ((sequencesOpen_of_mem_phrase kept stored own).all (named stored opens) hides).1

end SourceAtlas.Grammar
