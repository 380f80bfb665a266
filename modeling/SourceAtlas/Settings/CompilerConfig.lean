/-
# Compiler configurations

A compiler configuration is a JSON file with comments. It may extend another file, given by a
relative path, from which it takes what it does not set itself. The files of such a chain are all
different, so the chain ends; a file that extends itself through others is refused.
-/

import SourceAtlas.Data.Display
import SourceAtlas.Digest.Sha256
import SourceAtlas.Disk.Basic
import SourceAtlas.Json.Comments
import SourceAtlas.Json.Reader
import SourceAtlas.Json.Writer

namespace SourceAtlas.Settings

/-- What the scanner uses of a compiler configuration. -/
structure CompilerConfig where
  path : String
  directory : String
  /-- What is looked at, by entries that may be bare directories. -/
  included : List String := []
  /-- What is ignored. -/
  excluded : List String := []
  /-- The whole configuration. -/
  raw : List (String × Json) := []

/-- Why a compiler configuration cannot be loaded. -/
inductive ConfigFault where
  | circular (path : String)
  | notFound (path : String)
  | unreadable (path : String) (fault : DiskFault)
  | undecodable (fault : Text.Utf8Fault)
  | malformed (path : String) (text : List Char) (fault : Json.Fault)
  | notAnObject (path : String)

def ConfigFault.message : ConfigFault → String
  | .circular path => s!"Circular 'extends' in {path}"
  | .notFound path => s!"Compiler configuration not found: {path}"
  | .unreadable path fault => s!"Cannot read {path}: {fault.message path}"
  | .undecodable fault => fault.message
  | .malformed path text fault =>
    match fault with
    | .tooManyDigits _ => fault.message text
    | .malformed .. => s!"Invalid JSON in {path}: {fault.message text}"
  | .notAnObject path => s!"{path} must contain a JSON object"

/-- The text of a configuration without comments; an empty one stands for an empty object. -/
def configText (text : List Char) : List Char :=
  match Json.stripComments text with
  | [] => "\x7b\x7d".toList
  | stripped => stripped

/-- The members of the object in the configuration file at an absolute path. -/
def readConfig (disk : Disk) (path : String) : Except ConfigFault (List (String × Json)) :=
  if !disk.isFile path then .error (.notFound path)
  else
    match disk.readText path with
    | .error (.disk fault) => .error (.unreadable path fault)
    | .error (.encoding fault) => .error (.undecodable fault)
    | .ok text =>
      let stripped := configText text
      match Json.read stripped with
      | .error fault => .error (.malformed path stripped fault)
      | .ok (.object members) => .ok members
      | .ok _ => .error (.notAnObject path)

/-- The path of the configuration that the one in a directory extends, if it does. Only a target
that starts with a dot is followed, and packages are not looked up. -/
def extendedPath? (directory : String) (members : List (String × Json)) : Option String :=
  match members.lookup "extends" with
  | some (.text target) =>
    if target.startsWith "." then
      let path := Path.normalize (Path.join directory target)
      some (if path.endsWith ".json" then path else path ++ ".json")
    else none
  | _ => none

/-- The entries under a key as texts, if there is a list. Anything else under the key counts as
nothing. -/
def entryList? (key : String) (members : List (String × Json)) : Option (List String) :=
  match members.lookup key with
  | some (.array items) => some (items.map fun v => (Value.ofJson v).display)
  | _ => none

/-- A configuration over the one that it extends. A list of its own takes the place of the inherited
one, even an empty list; the raw members are its own alone. -/
def overlay (path : String) (members : List (String × Json)) (base : Option CompilerConfig) :
    CompilerConfig where
  path := path
  directory := Path.directory path
  included := (entryList? "include" members).getD ((base.map CompilerConfig.included).getD [])
  excluded := (entryList? "exclude" members).getD ((base.map CompilerConfig.excluded).getD [])
  raw := members

/-- Loads a configuration and those that it extends, with a bound on their number. -/
def loadChain (disk : Disk) : Nat → List String → String → Except ConfigFault CompilerConfig
  | 0, _, path => .error (.circular path)
  | bound + 1, seen, path => do
    let path := disk.absolutePath path
    if seen.contains path then throw (.circular path)
    let members ← readConfig disk path
    match extendedPath? (Path.directory path) members with
    | none => return overlay path members none
    | some parent =>
      let base ← loadChain disk bound (path :: seen) parent
      return overlay path members (some base)

/-- A chain without repetition is not longer than this: every file has at most two absolute
paths, one with a single slash in front and one with two. -/
def chainBound (disk : Disk) : Nat := 2 * disk.fileCount + 2

/-- Loads a configuration and those that it extends. A chain that comes back to a file is refused,
and so is one with a file that is missing or malformed. -/
def loadCompilerConfig (disk : Disk) (path : String) : Except ConfigFault CompilerConfig :=
  loadChain disk (chainBound disk) [] path

/-- The text whose digest tells configurations apart. It has the members of the configuration
itself, so a change in what it extends leaves it the same. -/
def CompilerConfig.payload (c : CompilerConfig) : String :=
  Json.write Json.canonical (.object c.raw)

def CompilerConfig.digest (c : CompilerConfig) : String := Digest.shortDigest c.payload

end SourceAtlas.Settings
