/-
# Arguments

The program has one command, which scans a repository and writes a report. Its arguments say where
the compiler configuration and the repository are, where the report goes and how much is reported.
-/

import SourceAtlas.CommandLine.Flag
import SourceAtlas.Number.Numeral

namespace SourceAtlas.CommandLine

def helpFlag : Flag := { names := ["-h", "--help"], setting := .help, takesValue := false }

def scanFlags : List Flag :=
  [helpFlag,
    { names := ["-t", "--tsconfig"], setting := .config, required := true },
    { names := ["-r", "--root"], setting := .root, required := true },
    { names := ["-o", "--output"], setting := .output },
    { names := ["--options"], setting := .options },
    { names := ["--percentile"], setting := .percentile },
    { names := ["--debug"], setting := .debug, takesValue := false }]

def programName : String := "modgraph"

def scanName : String := "scan"

/-- Why the words do not lead to a scan. -/
inductive Stop where
  | help
  /-- A fault, and the name of what refuses the words. -/
  | usage (refusing : String) (fault : UsageFault)
deriving DecidableEq, Repr

/-- A fault in words, if there is one. -/
def Stop.message? : Stop → Option String
  | .help => none
  | .usage refusing fault => some s!"{refusing}: error: {fault.message}"

/-- What the words have set so far. A flag to which the divider is attached is given, but has no
value. -/
structure Draft where
  config : Option (Option String) := none
  root : Option (Option String) := none
  output : Option String := none
  options : Option String := none
  percentile : Option Float := some 0.25
  debug : Bool := false

structure Arguments where
  config : Option String
  root : Option String
  output : Option String
  /-- The file with options. -/
  options : Option String
  percentile : Option Float
  debug : Bool

/-- The word that divides flags from values. -/
def dividerWord : String := "--"

/-- Sets what a flag asks for. The divider is dropped as a value. -/
def Draft.set (d : Draft) (refusing : String) (flag : Flag) (given : Option String) :
    Except Stop Draft :=
  let value := given.filter (· != dividerWord)
  match flag.setting with
  | .help => .error .help
  | .config => .ok { d with config := some value }
  | .root => .ok { d with root := some value }
  | .output => .ok { d with output := value }
  | .options => .ok { d with options := value }
  | .debug => .ok { d with debug := true }
  | .percentile =>
    match value with
    | none => .ok { d with percentile := none }
    | some text =>
      match Number.floatOfText text with
      | .ok x => .ok { d with percentile := some x }
      | .error _ => .error (.usage refusing (.notANumber flag text))

/-- Sets what the flags in one word ask for, and says how many of the words that follow are used. A
value that the last flag waits for is the next word. -/
def Draft.setCluster (d : Draft) (refusing : String) (c : Cluster) (rest : List Word) :
    Except Stop (Draft × Nat) := do
  let next? ← match c.waiting with
    | none => pure none
    | some flag =>
      match rest with
      | ⟨text, .value⟩ :: _ => pure (some (flag, some text))
      | _ => throw (.usage refusing (.missingValue flag))
  let d ← (c.settled ++ next?.toList).foldlM (fun d s => d.set refusing s.1 s.2) d
  return (d, next?.toList.length)

/-- What words ask for, and the words that ask for nothing. -/
def readWords (refusing : String) (flags : List Flag) (words : List Word) (d : Draft)
    (extras : List String) : Except Stop (Draft × List String) :=
  match words with
  | [] => .ok (d, extras)
  | word :: rest =>
    match word.role with
    | .flag flag attached => do
      let c ← (attached.cluster flags flag).mapError (.usage refusing)
      let (d, used) ← d.setCluster refusing c rest
      readWords refusing flags (rest.drop used) d extras
    | _ => readWords refusing flags rest d (extras ++ [word.text])
termination_by words.length
decreasing_by
  · simp only [List.length_drop, List.length_cons]
    omega
  · simp only [List.length_cons]
    omega

/-- The arguments of a draft that has all that is required. -/
def Draft.complete (d : Draft) : Except UsageFault Arguments :=
  match d.config, d.root with
  | some config, some root =>
    .ok { config, root, output := d.output, options := d.options, percentile := d.percentile
          debug := d.debug }
  | config, root =>
    let isMissing (f : Flag) : Bool :=
      (f.setting == .config && config.isNone) || (f.setting == .root && root.isNone)
    .error (.missing ((scanFlags.filter isMissing).map Flag.title))

def readScan (texts : List String) : Except Stop (Arguments × List String) := do
  let refusing := s!"{programName} {scanName}"
  let words ← (classify scanFlags texts).mapError (.usage refusing)
  let (d, extras) ← readWords refusing scanFlags words {} []
  let arguments ← d.complete.mapError (.usage refusing)
  return (arguments, extras)

def readCommand (name : String) (texts : List String) (extras : List String) :
    Except Stop Arguments := do
  if name != scanName then throw (.usage programName (.unknownCommand name [scanName]))
  let (arguments, more) ← readScan texts
  match extras ++ more with
  | [] => return arguments
  | all => throw (.usage programName (.unrecognized all))

/-- Reads words up to the command. The first value is the command. -/
def readProgram : List Word → List String → Except Stop Arguments
  | [], _ => .error (.usage programName (.missing ["command"]))
  | ⟨text, .value⟩ :: rest, extras => readCommand text (rest.map Word.text) extras
  | ⟨text, .divider⟩ :: next :: rest, extras =>
    readCommand text (next.text :: rest.map Word.text) extras
  | ⟨_, .flag flag attached⟩ :: rest, extras => do
    let c ← (attached.cluster [helpFlag] flag).mapError (.usage programName)
    let _ ← ({} : Draft).setCluster programName c rest
    readProgram rest extras
  | ⟨text, _⟩ :: rest, extras => readProgram rest (extras ++ [text])

def readArguments (texts : List String) : Except Stop Arguments := do
  let words ← (classify [helpFlag] texts).mapError (.usage programName)
  readProgram words []

end SourceAtlas.CommandLine
