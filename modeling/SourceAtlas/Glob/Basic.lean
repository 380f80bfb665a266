/-
# Path patterns

A path pattern is matched segment by segment. A segment `**` stands for any number of segments, and
any other segment for exactly one.
-/

import SourceAtlas.Glob.Segment
import SourceAtlas.Text.Basic

namespace SourceAtlas.Glob

/-- Backslashes divide segments like slashes. -/
def withSlashes (path : List Char) : List Char :=
  path.map fun c => if c == '\\' then '/' else c

/-- Takes one `./` away from the start. -/
def dropHere : List Char → List Char
  | '.' :: '/' :: rest => rest
  | path => path

/-- The segments of a path or pattern; slashes in a row, at the start and at the end count as
one. -/
def segments (path : String) : List String :=
  ((Text.splitAtChar '/' (dropHere (withSlashes path.toList))).map String.ofList).filter
    fun segment => segment != ""

/-- Whether segments match the segments of a pattern. -/
def matchSegments (wanted parts : List String) : Bool :=
  fits (· == "**") matchesSegment wanted parts

/-- Whether a path matches a pattern as a whole. Only the segment `**` reaches over slashes; it
takes any number of segments, also none. -/
def isMatch (pattern path : String) : Bool :=
  matchSegments (segments pattern) (segments path)

def matchesAny (patterns : List String) (path : String) : Bool :=
  patterns.any fun pattern => isMatch pattern path

/-- The characters that make an entry a pattern. -/
def specialChars : List Char := ['*', '?', '[']

/-- Takes the slashes at the end away. -/
def dropSlashes (path : List Char) : List Char :=
  (path.reverse.dropWhile (· == '/')).reverse

def lastSegment (path : List Char) : List Char :=
  (path.reverse.takeWhile (· != '/')).reverse

/-- What is added to a directory to mean everything beneath it. -/
def everythingBeneath : String := "/**/*"

/-- The pattern of an entry: a bare directory stands for everything beneath it. An entry counts as a
bare directory if nothing in it is special and its last segment has no dot; the disk is not
asked. -/
def ofEntry (entry : String) : String :=
  let path := dropHere (withSlashes entry.toList)
  let bare := dropSlashes path
  if !(path.any specialChars.contains) && !((lastSegment bare).contains '.') then
    String.ofList bare ++ everythingBeneath
  else String.ofList path

/-- The pattern before the given end. -/
def beforeEnd? (pattern ending : String) : Option String :=
  let chars := pattern.toList
  let tail := ending.toList
  if tail.isSuffixOf chars then some (String.ofList (chars.take (chars.length - tail.length)))
  else none

/-- Whether a pattern matches everything beneath a directory. This is told from the form of the
pattern: it has an end that takes in whatever is beneath, and what stands before that end matches
the directory. Other patterns may match everything too, and are not looked for. -/
def coversDirectory (pattern directory : String) : Bool :=
  [everythingBeneath, "/**"].any fun ending =>
    match beforeEnd? pattern ending with
    | some start => isMatch start directory
    | none => false

def ignoresDirectory (patterns : List String) (directory : String) : Bool :=
  patterns.any fun pattern => coversDirectory pattern directory

end SourceAtlas.Glob
