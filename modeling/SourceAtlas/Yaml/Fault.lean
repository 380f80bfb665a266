/-
# What can be wrong with a YAML text

A text may be no YAML at all, or a scalar in it may have no value. A file that is read piece by
piece may also turn out to hold bytes that are no text, long after the reading has begun.
-/

import SourceAtlas.Number.Numeral
import SourceAtlas.Text.Utf8

namespace SourceAtlas.Yaml

/-- Why a scalar has no value. -/
inductive ScalarFault where
  | numeral (fault : Number.NumeralFault)
  /-- A number without digits. -/
  | emptyNumeral
  /-- A number in base sixty that is too large for a double. -/
  | tooLarge
  /-- A word that is no truth value. -/
  | unknownTruth (word : String)
  /-- A text that is no point in time. -/
  | notATime (text : String)
  /-- A point in time that is not written as a text. -/
  | timeNotText
  /-- A day, an hour or an offset that does not exist, in words. -/
  | calendar (message : String)
  /-- A mapping that stands for itself. -/
  | endless
deriving DecidableEq, Repr

def ScalarFault.message : ScalarFault → String
  | .numeral fault => fault.message
  | .emptyNumeral => "A number has no digits"
  | .tooLarge => "A number is too large"
  | .unknownTruth word => s!"{Text.quoted word} is neither true nor false"
  | .notATime text => s!"{Text.quoted text} is no point in time"
  | .timeNotText => "A point in time is no text"
  | .calendar message => message
  | .endless => "A mapping stands for itself"

/-- Why a text has no value. -/
inductive YamlFault where
  /-- The text is no YAML, or a node is not what its tag says. -/
  | malformed
  /-- The bytes of the file are no text. -/
  | undecodable (fault : Text.Utf8Fault)
  /-- An escape names a character beyond the last one. -/
  | beyondCharacters
  /-- An escape names a number beyond all codes of characters. -/
  | beyondCodes
  | scalar (fault : ScalarFault)
deriving DecidableEq, Repr

def YamlFault.message : YamlFault → String
  | .malformed => "The text is no YAML"
  | .undecodable fault => fault.message
  | .beyondCharacters => "chr() arg not in range(0x110000)"
  | .beyondCodes => "An escape names no character"
  | .scalar fault => fault.message

end SourceAtlas.Yaml
