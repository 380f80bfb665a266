/-
# Option files

Options can be kept in a YAML file. An empty file sets nothing, and so does one whose value is empty
or zero; any other value has to be a mapping.
-/

import SourceAtlas.Settings.Options
import SourceAtlas.Text.Pieces
import SourceAtlas.Yaml.Document

namespace SourceAtlas.Settings

/-- Why options cannot be loaded from a file. -/
inductive OptionsFileFault where
  | unreadable (path : String) (fault : DiskFault)
  | yaml (path : String) (fault : Yaml.YamlFault)
  | notAMapping (path : String)
  | option (fault : OptionFault)

def OptionsFileFault.message : OptionsFileFault → String
  | .unreadable path fault => s!"Cannot read options file '{path}': {fault.message path}"
  | .yaml path .malformed => s!"Invalid YAML in '{path}'"
  | .yaml _ fault => fault.message
  | .notAMapping path => s!"Options file '{path}' must contain a mapping"
  | .option fault => fault.message

/-- What the root of a document sets a key to. -/
def settingIn? (document : Yaml.Document) (entries : List (Yaml.Atom × Nat)) (key : String) :
    Option Setting :=
  (entries.find? fun e => e.1.value.isText key).map fun e =>
    { value := document.value e.2, items := document.items? e.2 }

/-- The document of the YAML file at a path, which may have none. -/
def readYaml (disk : Disk) (path : String) : Except OptionsFileFault (Option Yaml.Document) :=
  match disk.readBytes path with
  | .error fault => .error (.unreadable path fault)
  | .ok bytes =>
    let (pieces, fault) := Text.textPieces bytes
    (Yaml.read pieces fault).mapError (.yaml path)

/-- Loads options from the file at a path. A file without a document and a root that counts as false
leave all defaults; any other root has to be a mapping. -/
def loadOptions (disk : Disk) (path : String) : Except OptionsFileFault Options := do
  match ← readYaml disk path with
  | none => return {}
  | some document =>
    match document.rootEntries? with
    | some entries => (Options.ofSettings (settingIn? document entries)).mapError .option
    | none =>
      if (document.value document.root).isTruthy then throw (.notAMapping path) else return {}

end SourceAtlas.Settings
