/-
# Running the program

A run scans the repository, scores its files and writes the report. Faults of the configuration end
a run with one status and faults of values with another; what neither foresees breaks it off.
-/

import SourceAtlas.Analysis.Cohesion
import SourceAtlas.CommandLine.Arguments
import SourceAtlas.Disk.Update
import SourceAtlas.Graph.Summary
import SourceAtlas.Json.Strict
import SourceAtlas.Scan.Scanner
import SourceAtlas.Settings.OptionsFile

namespace SourceAtlas.CommandLine

open Analysis SourceAtlas.Graph Scan Settings

/-- Why there is no report. -/
inductive RunFault where
  | options (fault : OptionsFileFault)
  | environment (fault : OptionFault)
  | noRoot
  | config (fault : ConfigFault)
  | scan (fault : ScanFault)
  | score (fault : ScoreFault)
  /-- A flag that needs a value has none. -/
  | noValue (setting : Setting)
  | output (path : String) (fault : DiskFault)

/-- What a fault is about. -/
inductive FaultKind where
  | configuration
  | value
  | unforeseen
deriving DecidableEq, Repr

def optionFaultKind : OptionFault → FaultKind
  | .workersNotWhole _ => .configuration
  | .numeral _ | .longNumber | .notANumber => .value
  | .wrongType | .infiniteNumber => .unforeseen

def scalarFaultKind : Yaml.ScalarFault → FaultKind
  | .numeral _ | .calendar _ => .value
  | _ => .unforeseen

def yamlFaultKind : Yaml.YamlFault → FaultKind
  | .malformed => .configuration
  | .undecodable _ | .beyondCharacters => .value
  | .beyondCodes => .unforeseen
  | .scalar fault => scalarFaultKind fault

def scoreFaultKind : ScoreFault → FaultKind
  | .arithmetic .roundedNaN | .percentileRange => .value
  | _ => .unforeseen

def RunFault.kind : RunFault → FaultKind
  | .options (.yaml _ fault) => yamlFaultKind fault
  | .options (.option fault) => optionFaultKind fault
  | .options _ => .configuration
  | .environment fault => optionFaultKind fault
  | .noRoot => .configuration
  | .config (.undecodable _) => .value
  | .config (.malformed _ _ (.tooManyDigits _)) => .value
  | .config _ => .configuration
  | .scan (.rootNotFound _) => .configuration
  | .scan (.build _) => .unforeseen
  | .score fault => scoreFaultKind fault
  | .noValue _ => .unforeseen
  | .output _ _ => .unforeseen

def scoreFaultMessage : ScoreFault → String
  | .arithmetic .roundedNaN => roundedNaNMessage
  | .percentileRange => percentileRangeMessage
  | _ => "A score cannot be computed"

def RunFault.message : RunFault → String
  | .options fault => fault.message
  | .environment fault => fault.message
  | .noRoot => "Root directory not found."
  | .config fault => fault.message
  | .scan (.rootNotFound root) => rootNotFoundMessage root
  | .scan (.build _) => "The graph cannot be built"
  | .score fault => scoreFaultMessage fault
  | .noValue _ => "A flag has no value"
  | .output path fault => fault.message path

/-- The report on a graph. Numbers that JSON cannot spell are null. -/
def reportOf (graph : DependencyGraph) (percentile? : Option Float) : Except RunFault Json := do
  let weights : Weights Number := .default
  let scores ← (analyze weights graph).mapError .score
  let percentile ← percentile?.elim (throw (.noValue .percentile)) pure
  let statistics ← (Analysis.statisticsRecord weights scores (.float percentile)).mapError .score
  return Json.strict (.object
    [("graph", graph.record),
      ("cohesion", .object
        [("raw", scoreMapRecord (rawScores scores)),
          ("normalized", scoreMapRecord (normalizedScores scores))]),
      ("statistics", statistics)])

def reportText (report : Json) : String := Json.write Json.indented report

inductive Ending where
  | status (code : Nat)
  /-- The run is broken off. -/
  | brokenOff (fault : RunFault)

/-- What a run leaves behind. -/
structure RunResult where
  ending : Ending
  /-- The lines on the standard output. -/
  output : List String := []
  /-- The lines on the standard error output. -/
  errors : List String := []
  /-- The file that is written, with its text. -/
  saved : Option (String × String) := none

def optionsOf (disk : Disk) (env : Environment) (arguments : Arguments) :
    Except RunFault Options := do
  let options ← match arguments.options with
    | none => pure {}
    | some path =>
      if path == "" then pure {} else (loadOptions disk path).mapError .options
  let options ← (options.withEnvironment env).mapError .environment
  return if arguments.debug then { options with debug := true } else options

def scannerOf (disk : Disk) (env : Environment) (arguments : Arguments) (config root : String) :
    Except RunFault Scanner := do
  let options ← optionsOf disk env arguments
  if !disk.isDirectory (disk.absolutePath root) then throw .noRoot
  match Scanner.setUp strictParser disk (disk.absolutePath config) (some options) env with
  | .ok scanner => return scanner
  | .error (.config fault) => throw (.config fault)
  | .error (.option fault) => throw (.environment fault)

def RunResult.fail (output errors : List String) (fault : RunFault) : RunResult :=
  let reported := errors ++ [s!"[ERROR] {fault.message}"]
  match fault.kind with
  | .configuration => { ending := .status 1, output, errors := reported }
  | .value => { ending := .status 2, output, errors := reported }
  | .unforeseen => { ending := .brokenOff fault, output, errors }

/-- Ends a run with a report, which goes to a file or to the standard output. -/
def RunResult.deliver (disk : Disk) (target : Option String) (output errors : List String)
    (text : String) : RunResult :=
  let path := target.getD ""
  if path == "" then { ending := .status 0, output := output ++ [text], errors }
  else
    match disk.writeFile path text.toUTF8.toList with
    | .error fault => .fail output errors (.output path fault)
    | .ok _ =>
      { ending := .status 0, output := output ++ [s!"[SAVE] Report written to {path}"], errors
        saved := some (path, text) }

def runScanAt (disk : Disk) (env : Environment) (arguments : Arguments) (config root : String) :
    RunResult :=
  match scannerOf disk env arguments config root with
  | .error fault => .fail [] [] fault
  | .ok scanner =>
    let outcome := scanner.scan disk (disk.absolutePath root) none
    match outcome.result with
    | .error fault => .fail outcome.log outcome.warnings (.scan fault)
    | .ok graph =>
      match reportOf graph arguments.percentile with
      | .error fault => .fail outcome.log outcome.warnings fault
      | .ok report =>
        .deliver disk arguments.output outcome.log outcome.warnings (reportText report)

/-- Scans a repository and reports on it. Without a configuration there is no scan, and without a
root neither; if both are missing, only the configuration is asked for. -/
def runScan (disk : Disk) (env : Environment) (arguments : Arguments) : RunResult :=
  match arguments.config, arguments.root with
  | some config, some root => runScanAt disk env arguments config root
  | none, _ => .fail [] [] (.noValue .config)
  | _, none => .fail [] [] (.noValue .root)

def run (disk : Disk) (env : Environment) (texts : List String) : Except Stop RunResult := do
  let arguments ← readArguments texts
  return runScan disk env arguments

end SourceAtlas.CommandLine
