/-
# Reading one configuration file

What a configuration file holds is an object, or nothing at all, which stands for an object without
members. The bytes of the file decide what becomes of a fault: it is a fault of the configuration
unless the bytes are no UTF-8 or spell a whole number with more digits than are read.
-/

import SourceAtlas.CommandLine.Run

namespace SourceAtlas.Settings

/-- A configuration file with the members of its object. -/
structure ConfigFile where
  path : String
  members : List (String × Json)

/-- A text holds an object, or nothing at all, which stands for an object without members. -/
def HoldsObject (text : List Char) (members : List (String × Json)) : Prop :=
  (Json.stripComments text = [] ∧ members = []) ∨
    Json.read (Json.stripComments text) = .ok (.object members)

/-- Bytes that are UTF-8 and hold no whole number with more digits than are read. -/
def IsLegible (bytes : List UInt8) : Prop :=
  ∃ text, Text.decodeUtf8 bytes = .ok text ∧
    ∀ count, Json.read (configText (Text.uniformLines text)) ≠ .error (.tooManyDigits count)

namespace ConfigFile

/-- A configuration file as it stands on a disk: there is a file at its path, and without comments
its text is the object with its members. -/
structure StandsOn (disk : Disk) (file : ConfigFile) : Prop where
  isFile : disk.isFile file.path = true
  holds : ∃ text, disk.readText file.path = .ok text ∧ HoldsObject text file.members

end ConfigFile

section Reading

variable {disk : Disk} {path : String}

theorem read_configText_eq_ok_iff {text : List Char} {members : List (String × Json)} :
    Json.read (configText text) = .ok (.object members) ↔ HoldsObject text members := by
  rw [configText, HoldsObject]
  split
  · rename_i empty
    have nothing : Json.read [] ≠ .ok (.object members) := by
      intro absurd
      cases absurd
    have braces : Json.read "\x7b\x7d".toList = .ok (.object []) := rfl
    rw [empty, braces]
    simp [nothing, eq_comm]
  · rename_i more
    constructor
    · exact Or.inr
    · intro holds
      exact holds.resolve_left fun empty => more empty.1

theorem readConfig_eq_ok_iff {members : List (String × Json)} :
    readConfig disk path = .ok members ↔ ConfigFile.StandsOn disk ⟨path, members⟩ := by
  have parts : ConfigFile.StandsOn disk ⟨path, members⟩ ↔ disk.isFile path = true ∧
      ∃ text, disk.readText path = .ok text ∧ HoldsObject text members :=
    ⟨fun stands => ⟨stands.isFile, stands.holds⟩, fun ⟨file, holds⟩ => ⟨file, holds⟩⟩
  rw [parts, readConfig]
  cases file : disk.isFile path with
  | false => simp
  | true =>
      cases disk.readText path with
      | error fault => cases fault <;> simp
      | ok text =>
          have reads := @read_configText_eq_ok_iff text members
          simp only [Bool.not_true, Bool.false_eq_true, if_false, Except.ok.injEq, true_and,
            exists_eq_left', ← reads]
          split
          · rename_i refused
            simp [refused]
          · rename_i found
            simp [found]
          · rename_i value other found
            rw [found]
            simpa using fun same => other members same

theorem isFile_eq_isOk_readBytes (disk : Disk) (path : String) :
    disk.isFile path = (disk.readBytes path).isOk := by
  rw [Disk.isFile, Disk.readBytes]
  cases disk.find path with
  | error fault => rfl
  | ok entry => cases entry <;> rfl

theorem isLegible_of_isOk {bytes : List UInt8}
    (read : (Text.decodeUtf8 bytes).toOption.map (fun text =>
      (Json.read (configText (Text.uniformLines text))).isOk) = some true) : IsLegible bytes := by
  cases decoded : Text.decodeUtf8 bytes with
  | error fault =>
      rw [decoded] at read
      cases read
  | ok text =>
      rw [decoded] at read
      refine ⟨text, decoded, fun count refused => ?_⟩
      rw [Except.toOption, Option.map_some, refused] at read
      cases read

open CommandLine in
/-- What is wrong with a file of legible bytes, or with one that is not there, is a fault of the
configuration. -/
theorem kind_of_readConfig_eq_error {fault : ConfigFault}
    (legible : ∀ bytes, disk.readBytes path = .ok bytes → IsLegible bytes)
    (failed : readConfig disk path = .error fault) :
    (RunFault.config fault).kind = .configuration := by
  rw [readConfig, isFile_eq_isOk_readBytes, Disk.readText] at failed
  cases found : disk.readBytes path with
  | error missing =>
      rw [found] at failed
      cases failed
      rfl
  | ok bytes =>
      obtain ⟨text, decoded, few⟩ := legible bytes found
      rw [found] at failed
      simp only [decoded] at failed
      cases value : Json.read (configText (Text.uniformLines text)) with
      | error refused =>
          simp only [value] at failed
          cases failed
          cases refused with
          | malformed kind position => rfl
          | tooManyDigits count => exact absurd value (few count)
      | ok held =>
          simp only [value] at failed
          cases held <;> cases failed <;> rfl

open CommandLine in
/-- Bytes that are not legible give a fault of another kind. -/
theorem readConfig_of_not_isLegible {bytes : List UInt8} (read : disk.readBytes path = .ok bytes)
    (illegible : ¬ IsLegible bytes) :
    ∃ fault, readConfig disk path = .error fault ∧ (RunFault.config fault).kind = .value := by
  rw [readConfig, isFile_eq_isOk_readBytes, Disk.readText, read]
  cases decoded : Text.decodeUtf8 bytes with
  | error refused =>
      simp only [decoded]
      exact ⟨_, rfl, rfl⟩
  | ok text =>
      have many : ∃ count,
          Json.read (configText (Text.uniformLines text)) = .error (.tooManyDigits count) := by
        apply Classical.byContradiction
        intro few
        exact illegible ⟨text, decoded, fun count refused => few ⟨count, refused⟩⟩
      obtain ⟨count, refused⟩ := many
      simp only [decoded, refused]
      exact ⟨_, rfl, rfl⟩

end Reading

/-- A fault is known by its kind. -/
theorem exists_error_of_kind {ε κ α : Type} {outcome : Except ε α} {kindOf : ε → κ} {kind : κ}
    (evaluated : (outcome.map fun _ => ()).mapError kindOf = .error kind) :
    ∃ fault, outcome = .error fault ∧ kindOf fault = kind := by
  cases outcome with
  | error fault => exact ⟨fault, rfl, Except.error.inj evaluated⟩
  | ok result => cases evaluated

end SourceAtlas.Settings
