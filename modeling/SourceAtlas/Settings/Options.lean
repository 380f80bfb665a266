/-
# Scanner options

What can be set for a scan: which files are looked at, what counts as internal, which extensions are
tried, and how much is reported. Options come from the defaults, from a mapping, and from the
environment, and what comes later wins.
-/

import SourceAtlas.Data.Display
import SourceAtlas.Digest.Sha256
import SourceAtlas.Disk.Resolve
import SourceAtlas.Json.Writer
import SourceAtlas.Number.Numeral

namespace SourceAtlas.Settings

/-- The files that are looked at unless patterns are given. -/
def defaultFilePatterns : List String := ["**/*.ts", "**/*.tsx", "**/*.js", "**/*.jsx"]

/-- What is always ignored. -/
def defaultIgnorePatterns : List String := ["**/node_modules/**", "**/dist/**", "**/build/**"]

structure Options where
  filePatterns : List String := []
  /-- What is ignored besides what always is. -/
  ignorePatterns : List String := []
  internalPackages : List String := []
  internalPrefix : Option String := none
  extensions : List String := defaultExtensions
  /-- Whether the scan reports what it does. -/
  debug : Bool := false
  /-- How many files may be parsed at once; one means one after the other. -/
  workers : Int := 1
deriving DecidableEq, Repr

def Options.allIgnorePatterns (o : Options) : List String :=
  defaultIgnorePatterns ++ o.ignorePatterns.filter fun p => !defaultIgnorePatterns.contains p

/-- Why options cannot be taken from a value. -/
inductive OptionFault where
  /-- A value has no items, or cannot be a number. -/
  | wrongType
  | numeral (fault : Number.NumeralFault)
  /-- A number has too many digits to be shown. -/
  | longNumber
  /-- A number is infinite. -/
  | infiniteNumber
  /-- A number is no number. -/
  | notANumber
  /-- The environment asks for something that is no number of workers. -/
  | workersNotWhole (text : String)
deriving DecidableEq, Repr

def OptionFault.message : OptionFault → String
  | .wrongType => "A value has the wrong type"
  | .numeral fault => fault.message
  | .longNumber => Number.wholeDigitLimitMessage none
  | .infiniteNumber => "cannot convert float infinity to integer"
  | .notANumber => "cannot convert float NaN to integer"
  | .workersNotWhole text => s!"MODGRAPH_MAX_WORKERS must be an integer, got '{text}'"

/-- What a key is set to. A value and its items are given apart from each other, because an item
that holds the value looks different on its own. -/
structure Setting where
  value : Value
  /-- The items, if the value has any. -/
  items : Option (List Value)

def Setting.ofValue (value : Value) : Setting := { value, items := value.items? }

def shown (v : Value) : Except OptionFault String :=
  if v.hasLongNumber then .error .longNumber else .ok v.display

/-- The items that a key is set to as texts. -/
def textItems (s : Setting) : Except OptionFault (List String) :=
  match s.items with
  | some items => items.mapM shown
  | none => .error .wrongType

/-- The whole number that a value is or holds. -/
def wholeNumber : Value → Except OptionFault Int
  | .bool b => .ok (if b then 1 else 0)
  | .number (.int n) => .ok n
  | .number (.float x) =>
    if x.isNaN then .error .notANumber
    else if x.isInf then .error .infiniteNumber
    else .ok (Number.truncateFloat x)
  | .text s => (Number.wholeOfText s).mapError .numeral
  | .bytes b => (Number.wholeOfBytes b).mapError .numeral
  | _ => .error .wrongType

/-- What a setting says, unless it is null. -/
def Setting.unlessNull? (s : Setting) : Option Setting :=
  match s.value with
  | .null => none
  | _ => some s

/-- The texts that a key is set to, or what was there before. -/
def listSetting (setting : Option Setting) (before : List String) :
    Except OptionFault (List String) :=
  match setting.bind Setting.unlessNull? with
  | some s => textItems s
  | none => .ok before

/-- The options for what keys are set to. A key that is not set or set to null leaves its default,
and there is always at least one worker. -/
def Options.ofSettings (find : String → Option Setting) : Except OptionFault Options := do
  let base : Options := {}
  let filePatterns ← listSetting (find "file_patterns") base.filePatterns
  let ignorePatterns ← listSetting (find "ignore_patterns") base.ignorePatterns
  let internalPackages ← listSetting (find "internal_packages") base.internalPackages
  let extensions ← listSetting (find "possible_extensions") base.extensions
  let internalPrefix ← match find "internal_package_prefix" with
    | some s => if s.value.isTruthy then (shown s.value).map some else pure none
    | none => pure none
  let debug := ((find "debug").map fun s => s.value.isTruthy).getD base.debug
  let workers ← match (find "max_workers").bind Setting.unlessNull? with
    | some s => do pure (max 1 (← wholeNumber s.value))
    | none => pure base.workers
  return { filePatterns, ignorePatterns, internalPackages, internalPrefix, extensions, debug
           workers }

def Options.ofEntries (entries : List (Value × Value)) : Except OptionFault Options :=
  Options.ofSettings fun key => (Value.entry? key entries).map Setting.ofValue

/-- What the environment says about a scan. -/
structure Environment where
  debug : Option String := none
  workers : Option String := none

/-- The words that turn reporting on. -/
def switchWords : List String := ["1", "true", "yes", "on"]

/-- The options with what the environment says. It can turn reporting on or off and set the number
of workers; an empty number says nothing, and one that is not whole is refused. -/
def Options.withEnvironment (o : Options) (env : Environment) : Except OptionFault Options := do
  let debug := (env.debug.map fun s => switchWords.contains s.toLower).getD o.debug
  match env.workers with
  | none => return { o with debug }
  | some text =>
    if text == "" then return { o with debug }
    else
      match Number.wholeOfText text with
      | .ok n => return { o with debug, workers := max 1 n }
      | .error _ => throw (.workersNotWhole text)

/-- The members that can change what a scan finds. Reporting and the number of workers cannot. -/
def Options.relevantMembers (o : Options) : List (String × Json) :=
  [("file_patterns", .texts o.filePatterns),
    ("ignore_patterns", .texts o.ignorePatterns),
    ("internal_packages", .texts o.internalPackages),
    ("internal_package_prefix", .optionalText o.internalPrefix),
    ("possible_extensions", .texts o.extensions)]

def Options.record (o : Options) : Json :=
  .object (o.relevantMembers ++ [("debug", .bool o.debug), ("max_workers", .int o.workers)])

/-- The text whose digest tells options apart. -/
def Options.payload (o : Options) : String :=
  Json.write Json.canonical (.object o.relevantMembers)

def Options.digest (o : Options) : String := Digest.shortDigest o.payload

end SourceAtlas.Settings
