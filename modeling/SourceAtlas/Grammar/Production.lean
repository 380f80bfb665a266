/-
# Productions

A grammar is flattened before it is used: every choice becomes productions of its own, a repetition
becomes a phrase that is one part or two such phrases in a row, and phrases that are to be replaced
by their rules are. Tokens and phrases are numbered, the tokens first.
-/

import Std.Data.HashMap
import SourceAtlas.Grammar.Language

namespace SourceAtlas.Grammar

/-- One part of a production. -/
structure Step where
  symbol : Nat
  level : Level
  side : Option Side
  shown : Option Shown
  role : Option String
deriving DecidableEq, Hashable, Repr

/-- A sequence of parts with its weight. -/
structure Sequence where
  steps : List Step
  weight : Int
deriving DecidableEq, Hashable, Repr

instance : Inhabited Sequence := ⟨⟨[], 0⟩⟩

/-- What a phrase is. -/
structure PhraseInfo where
  name : String
  /-- Whether it makes no node. -/
  hidden : Bool
  /-- Whether it stands for a repetition. -/
  repetition : Bool
  sequences : List Sequence
deriving Inhabited

/-- A rule in which each repetition has become a phrase of its own. -/
inductive Plain where
  | nothing
  | symbol (t : Terminal)
  | ref (name : String)
  | seq (parts : List Plain)
  | oneOf (choices : List Plain)
  | role (name : String) (part : Plain)
  | shownAs (shown : Shown) (part : Plain)
  | held (level : Level) (side : Option Side) (part : Plain)
  | weighed (weight : Int) (part : Plain)
deriving BEq, Hashable

/-- The repetitions met so far: what is repeated, and the name of the phrase for it. -/
abbrev Repetitions := Array (Plain × String)

/-- The name of a phrase for a repetition. Equal repetitions share one. -/
def nameRepetition (part : Plain) : StateM Repetitions String := do
  let met ← get
  match met.find? fun r => r.1 == part with
  | some r => return r.2
  | none =>
    let name := "_repetition " ++ toString met.size
    set (met.push (part, name))
    return name

mutual

/-- Gives each repetition of a rule a phrase of its own. -/
def Rule.plain : Rule → StateM Repetitions Plain
  | .nothing => return .nothing
  | .terminal t => return .symbol t
  | .ref name => return .ref name
  | .seq parts => return .seq (← plainParts parts)
  | .oneOf choices => return .oneOf (← plainParts choices)
  | .repeated part => return .ref (← nameRepetition (← part.plain))
  | .role name part => return .role name (← part.plain)
  | .shownAs shown part => return .shownAs shown (← part.plain)
  | .held level side part => return .held level side (← part.plain)
  | .weighed weight part => return .weighed weight (← part.plain)

def plainParts : List Rule → StateM Repetitions (List Plain)
  | [] => return []
  | r :: rest => return (← r.plain) :: (← plainParts rest)

end

/-- The rules of a language without repetitions, followed by those of the repetitions. -/
def Language.plainRules (language : Language) : List (String × Plain) :=
  let named : StateM Repetitions (List (String × Plain)) :=
    language.rules.mapM fun rule => return (rule.1, ← rule.2.plain)
  let (rules, repetitions) := named.run #[]
  let repeating := repetitions.toList.map fun r =>
    (r.2, Plain.oneOf [.seq [.ref r.2, .ref r.2], r.1])
  rules ++ repeating

mutual

def Plain.terminals : Plain → List Terminal
  | .symbol t => [t]
  | .nothing | .ref _ => []
  | .seq parts | .oneOf parts => terminalsOfParts parts
  | .role _ part | .shownAs _ part | .held _ _ part | .weighed _ part => part.terminals

def terminalsOfParts : List Plain → List Terminal
  | [] => []
  | p :: rest => p.terminals ++ terminalsOfParts rest

end

/-- The numbers of tokens and phrases. -/
structure Numbering where
  terminals : Array Terminal
  ofTerminal : Std.HashMap Terminal Nat
  ofPhrase : Std.HashMap String Nat

def Numbering.terminal (n : Numbering) (t : Terminal) : Nat := n.ofTerminal.getD t 0

def Numbering.phrase (n : Numbering) (name : String) : Nat := n.ofPhrase.getD name 0

/-- The tokens of a list, each once. -/
def distinct {α : Type} [BEq α] [Hashable α] (items : List α) : List α :=
  let step (state : List α × Std.HashMap α Unit) (a : α) : List α × Std.HashMap α Unit :=
    if state.2.contains a then state else (a :: state.1, state.2.insert a ())
  (items.foldl step ([], ∅)).1.reverse

/-- Numbers the tokens and phrases of a language. -/
def Language.numbering (language : Language) (rules : List (String × Plain)) : Numbering :=
  let terminals := distinct
    (rules.flatMap (fun rule => rule.2.terminals) ++ language.extras ++ [.endOfText])
  let phrases := rules.map Prod.fst
  { terminals := terminals.toArray
    ofTerminal := .ofList terminals.zipIdx
    ofPhrase := .ofList (phrases.zipIdx terminals.length) }

/-- What the rules around a part say about it. -/
structure Surroundings where
  level : Level := .unsaid
  side : Option Side := none
  shown : Option Shown := none
  role : Option String := none

/-- The weight of two parts together is the greater one, whatever its sign. -/
def joinWeights (a b : Int) : Int := if b.natAbs > a.natAbs then b else a

def Sequence.append (a b : Sequence) : Sequence :=
  ⟨a.steps ++ b.steps, joinWeights a.weight b.weight⟩

def Sequence.mapLast (f : Step → Step) (s : Sequence) : Sequence :=
  match s.steps.getLast? with
  | some last => { s with steps := s.steps.dropLast ++ [f last] }
  | none => s

mutual

/-- The sequences that a rule stands for. How firmly a part inside a rule holds ends with the part,
unless the rule ends there too. -/
def Plain.sequences (n : Numbering) (around : Surroundings) (atEnd : Bool) : Plain → List Sequence
  | .nothing => [⟨[], 0⟩]
  | .symbol t => [⟨[⟨n.terminal t, around.level, around.side, around.shown, around.role⟩], 0⟩]
  | .ref name => [⟨[⟨n.phrase name, around.level, around.side, around.shown, around.role⟩], 0⟩]
  | .seq parts => sequencesOfParts n around atEnd parts
  | .oneOf choices => sequencesOfChoices n around atEnd choices
  | .role name part => part.sequences n { around with role := some name } atEnd
  | .shownAs shown part => part.sequences n { around with shown := some shown } atEnd
  | .held level side part =>
    let inner := { around with level, side := side <|> around.side }
    let restore (step : Step) : Step :=
      { step with level := around.level, side := if side.isSome then around.side else step.side }
    let found := part.sequences n inner atEnd
    if atEnd then found else found.map (Sequence.mapLast restore)
  | .weighed weight part =>
    (part.sequences n around atEnd).map fun s => { s with weight := joinWeights weight s.weight }

def sequencesOfParts (n : Numbering) (around : Surroundings) (atEnd : Bool) :
    List Plain → List Sequence
  | [] => [⟨[], 0⟩]
  | [part] => part.sequences n around atEnd
  | part :: next :: rest =>
    let first := part.sequences n around false
    let others := sequencesOfParts n around atEnd (next :: rest)
    first.flatMap fun a => others.map a.append

def sequencesOfChoices (n : Numbering) (around : Surroundings) (atEnd : Bool) :
    List Plain → List Sequence
  | [] => []
  | part :: rest => part.sequences n around atEnd ++ sequencesOfChoices n around atEnd rest

end

/-- A sequence in place of a step. What is said about the step goes over to its replacement. -/
def Step.replacement (step : Step) (s : Sequence) : Sequence :=
  let dressed := s.steps.map fun inner =>
    { inner with shown := step.shown <|> inner.shown, role := step.role <|> inner.role }
  let settle (last : Step) : Step :=
    { last with
      level := if last.level == .unsaid then step.level else last.level
      side := last.side <|> step.side }
  Sequence.mapLast settle { s with steps := dressed }

/-- The sequences that remain when steps are replaced, from left to right; `fuel` bounds how deep
replacements are nested. -/
def replaceSteps (rule : Nat → Option (List Sequence)) : Nat → List Step → List Sequence
  | _, [] => [⟨[], 0⟩]
  | 0, steps => [⟨steps, 0⟩]
  | fuel + 1, step :: rest =>
    let others := replaceSteps rule (fuel + 1) rest
    match rule step.symbol with
    | none => others.map (Sequence.append ⟨[step], 0⟩)
    | some found =>
      found.flatMap fun s =>
        let inserted := step.replacement s
        (replaceSteps rule fuel inserted.steps).flatMap fun a =>
          others.map fun b => Sequence.append { a with weight := joinWeights a.weight s.weight } b
termination_by fuel steps => (fuel, steps.length)

/-- The phrases of a language with their sequences. -/
def Language.phrases (language : Language) (rules : List (String × Plain)) (n : Numbering) :
    Array PhraseInfo :=
  let found := rules.map fun rule => (rule.1, distinct (rule.2.sequences n {} true))
  let inlined : Std.HashMap Nat (List Sequence) :=
    .ofList ((found.filter fun p => language.inlined.contains p.1).map fun p =>
      (n.phrase p.1, p.2))
  let replace (s : Sequence) : List Sequence :=
    (replaceSteps inlined.get? 16 s.steps).map fun r =>
      { r with weight := joinWeights s.weight r.weight }
  let infos := found.map fun p =>
    let sequences :=
      if language.inlined.contains p.1 then [] else distinct (p.2.flatMap replace)
    { name := p.1
      hidden := p.1.startsWith "_" || language.unseen.contains p.1
      repetition := p.1.startsWith "_repetition "
      sequences }
  infos.toArray

end SourceAtlas.Grammar
