/-
# What the sequences of a rule can look like

A rule stands for many sequences. Its outline says in advance what they have in common: whether one
of them may be empty, with which symbols they start, which symbols they have at all, and which of
those are in the role of a name. Flattening the rule keeps to the outline.
-/

import Mathlib.Data.List.Basic
import SourceAtlas.Grammar.Production

namespace SourceAtlas.Grammar

/-- A symbol as a rule names it. -/
inductive RuleSymbol where
  | token (t : Terminal)
  | phrase (name : String)
  /-- The phrase that a repetition becomes. -/
  | repetition
deriving DecidableEq

/-- What the sequences of a rule have in common. It is worked out of the rule alone, without making
the sequences. -/
structure Outline where
  canBeEmpty : Bool
  heads : List RuleSymbol
  symbols : List RuleSymbol
  /-- The symbols in the role of a name. -/
  names : List RuleSymbol

namespace Outline

def nothing : Outline := ⟨true, [], [], []⟩

def one (symbol : RuleSymbol) (named : Bool) : Outline :=
  ⟨false, [symbol], [symbol], if named then [symbol] else []⟩

def append (a b : Outline) : Outline where
  canBeEmpty := a.canBeEmpty && b.canBeEmpty
  heads := a.heads ++ if a.canBeEmpty then b.heads else []
  symbols := a.symbols ++ b.symbols
  names := a.names ++ b.names

def either (a b : Outline) : Outline where
  canBeEmpty := a.canBeEmpty || b.canBeEmpty
  heads := a.heads ++ b.heads
  symbols := a.symbols ++ b.symbols
  names := a.names ++ b.names

end Outline

mutual

/-- The outline of a rule, in the role of a name or not. What is in the role of a name inside a
repetition counts as well. -/
def Rule.outline (named : Bool) : Rule → Outline
  | .nothing => .nothing
  | .terminal t => .one (.token t) named
  | .ref name => .one (.phrase name) named
  | .seq parts => outlineOfParts named parts
  | .oneOf choices => outlineOfChoices named choices
  | .repeated part =>
    let one := Outline.one .repetition named
    { one with names := one.names ++ (part.outline false).names }
  | .role name part => part.outline (name == "name")
  | .shownAs _ part | .held _ _ part | .weighed _ part => part.outline named

def outlineOfParts (named : Bool) : List Rule → Outline
  | [] => .nothing
  | [part] => part.outline named
  | part :: next :: rest => (part.outline named).append (outlineOfParts named (next :: rest))

def outlineOfChoices (named : Bool) : List Rule → Outline
  | [] => ⟨false, [], [], []⟩
  | part :: rest => (part.outline named).either (outlineOfChoices named rest)

end

/-- A number is that of a symbol. Nothing is said about repetitions. -/
def RuleSymbol.Numbers (n : Numbering) : RuleSymbol → Nat → Prop
  | .token t, number => t ∈ n.terminals.toList ∧ number = n.terminal t
  | .phrase name, number => number = n.phrase name
  | .repetition, _ => True

def NumberedAmong (n : Numbering) (symbols : List RuleSymbol) (number : Nat) : Prop :=
  ∃ symbol ∈ symbols, symbol.Numbers n number

/-- A sequence is as an outline says. -/
structure Outline.Covers (n : Numbering) (o : Outline) (steps : List Step) : Prop where
  empty : steps = [] → o.canBeEmpty = true
  head : ∀ step, steps.head? = some step → NumberedAmong n o.heads step.symbol
  symbols : ∀ step ∈ steps, NumberedAmong n o.symbols step.symbol
  names : ∀ step ∈ steps, step.role = some "name" → NumberedAmong n o.names step.symbol

section Covers

variable {n : Numbering} {a b : Outline} {steps others : List Step}

theorem NumberedAmong.mono {symbols more : List RuleSymbol} {number : Nat}
    (numbered : NumberedAmong n symbols number) (subset : ∀ symbol ∈ symbols, symbol ∈ more) :
    NumberedAmong n more number := by
  obtain ⟨symbol, listed, numbers⟩ := numbered
  exact ⟨symbol, subset symbol listed, numbers⟩

theorem NumberedAmong.left {symbols : List RuleSymbol} {number : Nat}
    (numbered : NumberedAmong n symbols number) (more : List RuleSymbol) :
    NumberedAmong n (symbols ++ more) number :=
  numbered.mono fun _ listed => List.mem_append_left _ listed

theorem NumberedAmong.right {symbols : List RuleSymbol} {number : Nat}
    (numbered : NumberedAmong n symbols number) (more : List RuleSymbol) :
    NumberedAmong n (more ++ symbols) number :=
  numbered.mono fun _ listed => List.mem_append_right _ listed

namespace Outline

theorem covers_nothing : nothing.Covers n [] where
  empty _ := rfl
  head _ none := by cases none
  symbols _ none := by cases none
  names _ none := by cases none

theorem covers_one {symbol : RuleSymbol} {step : Step} (numbers : symbol.Numbers n step.symbol)
    {named : Bool} (role : step.role = some "name" → named = true) :
    (one symbol named).Covers n [step] := by
  have numbered : NumberedAmong n [symbol] step.symbol :=
    ⟨symbol, List.mem_singleton_self _, numbers⟩
  refine ⟨fun none => ?_, fun other first => ?_, fun other listed => ?_,
    fun other listed isName => ?_⟩
  · cases none
  · cases first
    exact numbered
  · rw [List.mem_singleton.mp listed]
    exact numbered
  · rw [List.mem_singleton.mp listed] at isName ⊢
    rw [one, role isName]
    exact numbered

theorem Covers.append (first : a.Covers n steps) (second : b.Covers n others) :
    (a.append b).Covers n (steps ++ others) := by
  refine ⟨fun none => ?_, fun step isFirst => ?_, fun step listed => ?_, fun step listed role => ?_⟩
  · obtain ⟨none, none'⟩ := List.append_eq_nil_iff.mp none
    rw [Outline.append, first.empty none, second.empty none']
    rfl
  · cases steps with
    | nil =>
        rw [Outline.append, first.empty rfl]
        exact (second.head step isFirst).right _
    | cons head rest => exact (first.head step isFirst).left _
  · rcases List.mem_append.mp listed with early | late
    · exact (first.symbols step early).left _
    · exact (second.symbols step late).right _
  · rcases List.mem_append.mp listed with early | late
    · exact (first.names step early role).left _
    · exact (second.names step late role).right _

theorem Covers.either_left (covers : a.Covers n steps) (b : Outline) :
    (a.either b).Covers n steps where
  empty none := by rw [either, covers.empty none]; rfl
  head step isFirst := (covers.head step isFirst).left _
  symbols step listed := (covers.symbols step listed).left _
  names step listed role := (covers.names step listed role).left _

theorem Covers.either_right (covers : b.Covers n steps) (a : Outline) :
    (a.either b).Covers n steps where
  empty none := by rw [either, covers.empty none, Bool.or_true]
  head step isFirst := (covers.head step isFirst).right _
  symbols step listed := (covers.symbols step listed).right _
  names step listed role := (covers.names step listed role).right _

/-- An outline says nothing about how firmly parts are held. -/
theorem Covers.of_map_eq (covers : a.Covers n steps)
    (same : others.map (fun step => (step.symbol, step.role)) =
      steps.map (fun step => (step.symbol, step.role))) : a.Covers n others := by
  -- Every step of the one sequence has its like in the other.
  have like {step : Step} (listed : step ∈ others) :
      ∃ old ∈ steps, old.symbol = step.symbol ∧ old.role = step.role := by
    have among := List.mem_map_of_mem (f := fun step : Step => (step.symbol, step.role)) listed
    rw [same] at among
    obtain ⟨old, known, equal⟩ := List.mem_map.mp among
    exact ⟨old, known, congrArg Prod.fst equal, congrArg Prod.snd equal⟩
  refine ⟨fun none => ?_, fun step isFirst => ?_, fun step listed => ?_, fun step listed role => ?_⟩
  · rw [none] at same
    exact covers.empty (List.map_eq_nil_iff.mp same.symm)
  · have firsts := congrArg List.head? same
    rw [List.head?_map, List.head?_map, isFirst] at firsts
    obtain ⟨old, known, equal⟩ := Option.map_eq_some_iff.mp firsts.symm
    have symbol : old.symbol = step.symbol := congrArg Prod.fst equal
    rw [← symbol]
    exact covers.head old known
  · obtain ⟨old, known, symbol, -⟩ := like listed
    rw [← symbol]
    exact covers.symbols old known
  · obtain ⟨old, known, symbol, roles⟩ := like listed
    rw [← symbol]
    exact covers.names old known (roles.trans role)

end Outline

/-- Changing the last step leaves what it does not touch. -/
theorem Sequence.map_steps_mapLast {α : Type} (f : Step → Step) (g : Step → α)
    (same : ∀ step, g (f step) = g step) (s : Sequence) :
    (s.mapLast f).steps.map g = s.steps.map g := by
  rw [mapLast]
  split
  · rename_i last found
    rw [List.map_append, List.map_singleton, same, ← List.map_singleton, ← List.map_append,
      List.dropLast_append_getLast? last found]
  · rfl

end Covers

/-! ## Flattening a rule -/

section Flatten

variable {n : Numbering}

mutual

/-- The sequences of a rule without its repetitions keep to the outline of the rule. -/
theorem Rule.covers_plain (r : Rule) (met : Repetitions) {around : Surroundings}
    {atEnd named : Bool} (role : around.role = some "name" → named = true)
    (known : ∀ t ∈ ((r.plain.run met).1).terminals, t ∈ n.terminals.toList) :
    ∀ s ∈ ((r.plain.run met).1).sequences n around atEnd, (r.outline named).Covers n s.steps := by
  cases r with
  | nothing =>
      intro s listed
      rw [List.mem_singleton.mp listed]
      exact Outline.covers_nothing
  | terminal t =>
      intro s listed
      rw [List.mem_singleton.mp listed]
      have numbers : RuleSymbol.Numbers n (.token t) (n.terminal t) :=
        ⟨known t (List.mem_singleton_self t), rfl⟩
      exact Outline.covers_one numbers role
  | ref name =>
      intro s listed
      rw [List.mem_singleton.mp listed]
      have numbers : RuleSymbol.Numbers n (.phrase name) (n.phrase name) := rfl
      exact Outline.covers_one numbers role
  | seq parts => exact covers_plainParts parts met role known
  | oneOf choices => exact covers_plainChoices choices met role known
  | repeated part =>
      intro s listed
      rw [List.mem_singleton.mp listed]
      have one := @Outline.covers_one n .repetition
        ⟨n.phrase ((nameRepetition (part.plain.run met).1).run (part.plain.run met).2).1,
          around.level, around.side, around.shown, around.role⟩ trivial named role
      exact ⟨one.empty, one.head, one.symbols, fun step listed isName =>
        (one.names step listed isName).left _⟩
  | role name part =>
      refine part.covers_plain met (fun isName => ?_) known
      rw [show name = "name" from Option.some.inj isName]
      rfl
  | shownAs shown part => exact part.covers_plain met role known
  | held level side part =>
      have inner : ∀ s ∈ Plain.sequences n { around with level, side := side <|> around.side } atEnd
          (part.plain.run met).1, (part.outline named).Covers n s.steps :=
        part.covers_plain met role known
      intro s listed
      change s ∈ if atEnd then _ else _ at listed
      split at listed
      · exact inner s listed
      · obtain ⟨t, among, rfl⟩ := List.mem_map.mp listed
        apply (inner t among).of_map_eq
        apply Sequence.map_steps_mapLast
        intro step
        rfl
  | weighed weight part =>
      intro s listed
      obtain ⟨t, among, rfl⟩ := List.mem_map.mp listed
      exact part.covers_plain met role known t among

theorem covers_plainParts (parts : List Rule) (met : Repetitions) {around : Surroundings}
    {atEnd named : Bool} (role : around.role = some "name" → named = true)
    (known : ∀ t ∈ terminalsOfParts ((plainParts parts).run met).1, t ∈ n.terminals.toList) :
    ∀ s ∈ sequencesOfParts n around atEnd ((plainParts parts).run met).1,
      (outlineOfParts named parts).Covers n s.steps := by
  match parts with
  | [] =>
      intro s listed
      rw [List.mem_singleton.mp listed]
      exact Outline.covers_nothing
  | [part] =>
      exact part.covers_plain met role fun t among => known t (List.mem_append_left _ among)
  | part :: next :: rest =>
      intro s listed
      obtain ⟨first, early, later⟩ := List.mem_flatMap.mp listed
      obtain ⟨second, late, rfl⟩ := List.mem_map.mp later
      apply Outline.Covers.append
      · exact part.covers_plain met role
          (fun t among => known t (List.mem_append_left _ among)) first early
      · exact covers_plainParts (next :: rest) (part.plain.run met).2 role
          (fun t among => known t (List.mem_append_right _ among)) second late

theorem covers_plainChoices (parts : List Rule) (met : Repetitions) {around : Surroundings}
    {atEnd named : Bool} (role : around.role = some "name" → named = true)
    (known : ∀ t ∈ terminalsOfParts ((plainParts parts).run met).1, t ∈ n.terminals.toList) :
    ∀ s ∈ sequencesOfChoices n around atEnd ((plainParts parts).run met).1,
      (outlineOfChoices named parts).Covers n s.steps := by
  match parts with
  | [] =>
      intro s none
      cases none
  | part :: rest =>
      intro s listed
      rcases List.mem_append.mp listed with here | later
      · exact (part.covers_plain met role
          (fun t among => known t (List.mem_append_left _ among)) s here).either_left _
      · exact (covers_plainChoices rest (part.plain.run met).2 role
          (fun t among => known t (List.mem_append_right _ among)) s later).either_right _

end

end Flatten

/-- A flattened rule that names nothing but some symbols. -/
def FlatRule (names : List RuleSymbol) (plain : Plain) : Prop :=
  ∃ (part : Rule) (met : Repetitions), plain = (part.plain.run met).1 ∧
    ∀ symbol ∈ (part.outline false).names, symbol ∈ names

def IsRepetitionName (name : String) : Prop :=
  ∃ number : Nat, name = "_repetition " ++ toString number

/-- All repetitions that were met are flattened rules that name nothing but some symbols. -/
def Repetitions.Flat (names : List RuleSymbol) (met : Repetitions) : Prop :=
  ∀ r ∈ met.toList, FlatRule names r.1 ∧ IsRepetitionName r.2

section Flat

variable {names : List RuleSymbol}

theorem mem_names_outlineOfParts {parts : List Rule} {part : Rule} (listed : part ∈ parts)
    {named : Bool} : ∀ symbol ∈ (part.outline named).names,
      symbol ∈ (outlineOfParts named parts).names := by
  induction parts with
  | nil => cases listed
  | cons first rest ih =>
      intro symbol among
      cases rest with
      | nil =>
          rw [List.mem_singleton.mp listed] at among
          exact among
      | cons next more =>
          rcases List.mem_cons.mp listed with rfl | later
          · exact List.mem_append_left _ among
          · exact List.mem_append_right _ (ih later symbol among)

theorem mem_names_outlineOfChoices {parts : List Rule} {part : Rule} (listed : part ∈ parts)
    {named : Bool} : ∀ symbol ∈ (part.outline named).names,
      symbol ∈ (outlineOfChoices named parts).names := by
  induction parts with
  | nil => cases listed
  | cons first rest ih =>
      intro symbol among
      rcases List.mem_cons.mp listed with rfl | later
      · exact List.mem_append_left _ among
      · exact List.mem_append_right _ (ih later symbol among)

theorem flat_nameRepetition {met : Repetitions} (flat : met.Flat names) {plain : Plain}
    (fits : FlatRule names plain) : Repetitions.Flat names ((nameRepetition plain).run met).2 := by
  cases known : met.find? fun r => r.1 == plain with
  | some r =>
      have step : (nameRepetition plain).run met = (r.2, met) := by
        rw [nameRepetition, StateT.run_bind, StateT.run_get, pure_bind]
        dsimp only
        rw [known]
        rfl
      rw [step]
      exact flat
  | none =>
      have step : (nameRepetition plain).run met = ("_repetition " ++ toString met.size,
          met.push (plain, "_repetition " ++ toString met.size)) := by
        rw [nameRepetition, StateT.run_bind, StateT.run_get, pure_bind]
        dsimp only
        rw [known]
        rfl
      rw [step]
      intro r listed
      rw [Array.toList_push, List.mem_append, List.mem_singleton] at listed
      rcases listed with before | rfl
      · exact flat r before
      · exact ⟨fits, met.size, rfl⟩

mutual

theorem Rule.flat_plain (r : Rule) {named : Bool}
    (within : ∀ symbol ∈ (r.outline named).names, symbol ∈ names) {met : Repetitions}
    (flat : met.Flat names) : Repetitions.Flat names (r.plain.run met).2 := by
  cases r with
  | nothing => exact flat
  | terminal t => exact flat
  | ref name => exact flat
  | seq parts =>
      exact flat_plainParts parts
        (fun part listed symbol among =>
          within symbol (mem_names_outlineOfParts listed symbol among))
        flat
  | oneOf choices =>
      exact flat_plainParts choices
        (fun part listed symbol among =>
          within symbol (mem_names_outlineOfChoices listed symbol among))
        flat
  | repeated part =>
      have inner : ∀ symbol ∈ (part.outline false).names, symbol ∈ names :=
        fun symbol among => within symbol (List.mem_append_right _ among)
      exact flat_nameRepetition (part.flat_plain inner flat) ⟨part, met, rfl, inner⟩
  | role name part => exact part.flat_plain within flat
  | shownAs shown part => exact part.flat_plain within flat
  | held level side part => exact part.flat_plain within flat
  | weighed weight part => exact part.flat_plain within flat

theorem flat_plainParts (parts : List Rule) {named : Bool}
    (within : ∀ part ∈ parts, ∀ symbol ∈ (part.outline named).names, symbol ∈ names)
    {met : Repetitions} (flat : met.Flat names) :
    Repetitions.Flat names ((plainParts parts).run met).2 := by
  cases parts with
  | nil => exact flat
  | cons part rest =>
      have first := part.flat_plain (within part List.mem_cons_self) flat
      exact flat_plainParts rest
        (fun other later => within other (List.mem_cons_of_mem _ later)) first

end

/-- Flattening rules one after the other. -/
def plainEach (rules : List (String × Rule)) : StateM Repetitions (List (String × Plain)) :=
  rules.mapM fun rule => return (rule.1, ← rule.2.plain)

theorem plainEach_cons (rule : String × Rule) (rest : List (String × Rule)) (met : Repetitions) :
    (plainEach (rule :: rest)).run met =
      ((rule.1, (rule.2.plain.run met).1) :: ((plainEach rest).run (rule.2.plain.run met).2).1,
        ((plainEach rest).run (rule.2.plain.run met).2).2) := by
  rw [plainEach, List.mapM_cons]
  rfl

theorem map_fst_plainEach (rules : List (String × Rule)) (met : Repetitions) :
    ((plainEach rules).run met).1.map Prod.fst = rules.map Prod.fst := by
  induction rules generalizing met with
  | nil => rfl
  | cons rule rest ih => rw [plainEach_cons, List.map_cons, List.map_cons, ih]

theorem of_mem_plainEach {rules : List (String × Rule)} {met : Repetitions}
    {flat : String × Plain} (listed : flat ∈ ((plainEach rules).run met).1) :
    ∃ rule ∈ rules, flat.1 = rule.1 ∧ ∃ met, flat.2 = (rule.2.plain.run met).1 := by
  induction rules generalizing met with
  | nil => cases listed
  | cons rule rest ih =>
      rw [plainEach_cons] at listed
      rcases List.mem_cons.mp listed with rfl | later
      · exact ⟨rule, List.mem_cons_self, rfl, met, rfl⟩
      · obtain ⟨other, among, same⟩ := ih later
        exact ⟨other, List.mem_cons_of_mem _ among, same⟩

theorem exists_mem_plainEach {rules : List (String × Rule)} {rule : String × Rule}
    (listed : rule ∈ rules) (met : Repetitions) :
    ∃ before, (rule.1, (rule.2.plain.run before).1) ∈ ((plainEach rules).run met).1 := by
  induction rules generalizing met with
  | nil => cases listed
  | cons first rest ih =>
      rw [plainEach_cons]
      rcases List.mem_cons.mp listed with rfl | later
      · exact ⟨met, List.mem_cons_self⟩
      · obtain ⟨before, among⟩ := ih later (first.2.plain.run met).2
        exact ⟨before, List.mem_cons_of_mem _ among⟩

theorem flat_plainEach {rules : List (String × Rule)}
    (within : ∀ rule ∈ rules, ∀ symbol ∈ (rule.2.outline false).names, symbol ∈ names)
    {met : Repetitions} (flat : met.Flat names) :
    Repetitions.Flat names ((plainEach rules).run met).2 := by
  induction rules generalizing met with
  | nil => exact flat
  | cons rule rest ih =>
      rw [plainEach_cons]
      exact ih (fun other later => within other (List.mem_cons_of_mem _ later))
        (rule.2.flat_plain (within rule List.mem_cons_self) flat)

end Flat

namespace Language

variable {language : Language}

theorem plainRules_eq : language.plainRules =
    ((plainEach language.rules).run #[]).1 ++
      ((plainEach language.rules).run #[]).2.toList.map fun r =>
        (r.2, Plain.oneOf [.seq [.ref r.2, .ref r.2], r.1]) := rfl

/-- A rule without repetitions comes from a rule of the language, or from a repetition in one. -/
theorem of_mem_plainRules {names : List RuleSymbol}
    (within : ∀ rule ∈ language.rules, ∀ symbol ∈ (rule.2.outline false).names, symbol ∈ names)
    {flat : String × Plain} (listed : flat ∈ language.plainRules) :
    (∃ rule ∈ language.rules, flat.1 = rule.1 ∧ ∃ met, flat.2 = (rule.2.plain.run met).1) ∨
      IsRepetitionName flat.1 ∧ ∃ plain, FlatRule names plain ∧
        flat.2 = .oneOf [.seq [.ref flat.1, .ref flat.1], plain] := by
  rw [plainRules_eq, List.mem_append] at listed
  rcases listed with own | repeating
  · exact .inl (of_mem_plainEach own)
  · obtain ⟨r, among, rfl⟩ := List.mem_map.mp repeating
    obtain ⟨fits, name⟩ := flat_plainEach within (fun _ none => by cases none) r among
    exact .inr ⟨name, r.1, fits, rfl⟩

theorem exists_mem_plainRules {rule : String × Rule} (listed : rule ∈ language.rules) :
    ∃ met, (rule.1, (rule.2.plain.run met).1) ∈ language.plainRules := by
  obtain ⟨met, among⟩ := exists_mem_plainEach listed #[]
  exact ⟨met, List.mem_append_left _ among⟩

theorem mem_plainRules_names {name : String} (listed : name ∈ language.rules.map Prod.fst) :
    name ∈ language.plainRules.map Prod.fst := by
  rw [plainRules_eq, List.map_append, map_fst_plainEach]
  exact List.mem_append_left _ listed

end Language

end SourceAtlas.Grammar
