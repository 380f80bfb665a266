/-
# Flags and words

A word of a command line is a value or a flag. A flag may be shortened as long as it stays clear
which one is meant, and its value may be attached to it: after an equals sign, or right after a flag
of one letter. Words that look like negative numbers, or hold a space, are values.
-/

import SourceAtlas.Text.Basic
import SourceAtlas.Text.Quoted

namespace SourceAtlas.CommandLine

/-- What a flag sets. -/
inductive Setting where
  | help
  | config
  | root
  | output
  | options
  | percentile
  | debug
deriving DecidableEq, Repr

structure Flag where
  /-- The spellings, with their dashes. -/
  names : List String
  setting : Setting
  takesValue : Bool := true
  required : Bool := false
deriving DecidableEq, Repr

def Flag.title (f : Flag) : String := "/".intercalate f.names

/-- Why the words of a command line are refused. -/
inductive UsageFault where
  | ambiguous (word : String) (candidates : List String)
  | missingValue (flag : Flag)
  /-- A flag that takes no value has one. -/
  | ignoredValue (flag : Flag) (value : String)
  | notANumber (flag : Flag) (value : String)
  | missing (titles : List String)
  | unknownCommand (word : String) (known : List String)
  | unrecognized (words : List String)
deriving DecidableEq, Repr

def UsageFault.message : UsageFault → String
  | .ambiguous word candidates =>
    let all := ", ".intercalate candidates
    s!"ambiguous option: {word} could match {all}"
  | .missingValue flag => s!"argument {flag.title}: expected one argument"
  | .ignoredValue flag value =>
    s!"argument {flag.title}: ignored explicit argument {Text.quoted value}"
  | .notANumber flag value =>
    s!"argument {flag.title}: invalid float value: {Text.quoted value}"
  | .missing titles =>
    let all := ", ".intercalate titles
    s!"the following arguments are required: {all}"
  | .unknownCommand word known =>
    let all := ", ".intercalate (known.map Text.quoted)
    s!"argument command: invalid choice: {Text.quoted word} (choose from {all})"
  | .unrecognized words =>
    let all := " ".intercalate words
    s!"unrecognized arguments: {all}"

/-- A value that is attached to a flag. -/
inductive Attached where
  | nothing
  /-- The value can be nothing else. -/
  | assigned (value : List Char)
  /-- The value follows the letter of a flag, and may be more such letters. -/
  | joined (value : List Char)
deriving DecidableEq, Repr

/-- What a word is. -/
inductive Role where
  | value
  /-- Everything after this word is a value. -/
  | divider
  | unknownFlag
  | flag (flag : Flag) (attached : Attached)
deriving DecidableEq, Repr

structure Word where
  text : String
  role : Role
deriving DecidableEq, Repr

def flagNamed? (flags : List Flag) (name : String) : Option Flag :=
  flags.find? fun f => f.names.contains name

/-- Whether a text is a negative number, with a point or without. -/
def looksNegative (text : List Char) : Bool :=
  let isDigit (c : Char) : Bool := (Text.digitValue? c).isSome
  match Text.withoutFinalBreak text with
  | '-' :: body =>
    match body.dropWhile isDigit with
    | [] => !body.isEmpty
    | '.' :: fraction => !fraction.isEmpty && fraction.all isDigit
    | _ => false
  | _ => false

/-- What is attached by an equals sign to a flag of a spelling. A value after the letter of a flag
may be more letters, with the sign or without it. -/
def attachedTo (name value : List Char) : Attached :=
  match name, value with
  | '-' :: '-' :: _, _ => .assigned value
  | _, [] => .assigned value
  | _, _ => .joined value

/-- The text before the first equals sign, and what is attached by it. -/
def splitAssigned (text : List Char) : List Char × Attached :=
  match text.dropWhile (· != '=') with
  | [] => (text, .nothing)
  | _ :: value =>
    let name := text.takeWhile (· != '=')
    (name, attachedTo name value)

/-- The spellings that a shortened flag may stand for, with their flags. -/
def completions (flags : List Flag) (start : String) : List (String × Flag) :=
  flags.flatMap fun f => (f.names.filter fun n => n.startsWith start).map fun n => (n, f)

def longRole? (flags : List Flag) (text : String) : Except UsageFault (Option Role) :=
  let (start, attached) := splitAssigned text.toList
  match completions flags (String.ofList start) with
  | [] => .ok none
  | [only] => .ok (some (.flag only.2 attached))
  | many => .error (.ambiguous text (many.map Prod.fst))

def shortRole? (flags : List Flag) (text : List Char) : Option Role :=
  (flagNamed? flags (String.ofList (text.take 2))).map fun f => .flag f (.joined (text.drop 2))

/-- The role of a word that is no known flag. -/
def otherRole (text : String) : Role :=
  if looksNegative text.toList || text.toList.contains ' ' then .value else .unknownFlag

def dashedRole (flags : List Flag) (text : String) : Except UsageFault Role := do
  let (name, attached) := splitAssigned text.toList
  match flagNamed? flags text, flagNamed? flags (String.ofList name) with
  | some f, _ => return .flag f .nothing
  | none, some f => return .flag f attached
  | none, none =>
    match text.toList with
    | ['-'] => return .value
    | '-' :: '-' :: _ => return (← longRole? flags text).getD (otherRole text)
    | _ => return (shortRole? flags text.toList).getD (otherRole text)

def roleOf (flags : List Flag) (text : String) : Except UsageFault Role :=
  if text.startsWith "-" then dashedRole flags text else .ok .value

/-- The words of a command line with their roles. -/
def classify (flags : List Flag) : List String → Except UsageFault (List Word)
  | [] => .ok []
  | text :: rest =>
    if text == "--" then
      .ok (⟨text, .divider⟩ :: rest.map fun t => ⟨t, .value⟩)
    else do
      let role ← roleOf flags text
      let words ← classify flags rest
      return ⟨text, role⟩ :: words

/-- What the flags in one word ask for. -/
structure Cluster where
  /-- The flags with their values, in order. -/
  settled : List (Flag × Option String) := []
  /-- The flag that takes the next word as its value. -/
  waiting : Option Flag := none

/-- A cluster with another flag in front. -/
def Cluster.after (flag : Flag) (c : Cluster) : Cluster :=
  { c with settled := (flag, none) :: c.settled }

def Cluster.single (flag : Flag) : Cluster :=
  if flag.takesValue then { waiting := some flag } else { settled := [(flag, none)] }

def Cluster.withValue (flag : Flag) (value : List Char) : Except UsageFault Cluster :=
  if flag.takesValue then .ok { settled := [(flag, some (String.ofList value))] }
  else .error (.ignoredValue flag (String.ofList value))

/-- A flag of one letter with characters after it. If it takes no value, the characters are more
flags of one letter. -/
def cluster (flags : List Flag) (flag : Flag) : List Char → Except UsageFault Cluster
  | [] => .ok (.single flag)
  | c :: rest =>
    if flag.takesValue then Cluster.withValue flag (c :: rest)
    else
      match flagNamed? flags (String.ofList ['-', c]) with
      | none => Cluster.withValue flag (c :: rest)
      | some next => (cluster flags next rest).map (.after flag)

def Attached.cluster (flags : List Flag) (flag : Flag) : Attached → Except UsageFault Cluster
  | .nothing => .ok (.single flag)
  | .assigned value => Cluster.withValue flag value
  | .joined value => CommandLine.cluster flags flag value

end SourceAtlas.CommandLine
