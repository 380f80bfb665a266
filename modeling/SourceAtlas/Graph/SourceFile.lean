/-
# What is known of one source file

The result of looking at one file: its imports and declarations, or why it could not be read. Every
file is looked at on its own, and the graph is put together afterwards.

Only internal imports become edges of the graph. A specifier is internal to the scanned code if it
starts with a dot, starts with the path of the scanned root, is one of the listed packages, or
starts with the package scope.
-/

import SourceAtlas.Graph.Node

namespace SourceAtlas.Graph

/-- What decides whether a specifier is internal. -/
structure InternalScope where
  /-- The scanned root; the empty text makes nothing internal. -/
  root : String
  packages : List String := []
  /-- The start of the names of internal packages; the empty text makes nothing internal. -/
  scope : Option String := none

/-- Whether a text starts with another one that is given and not empty. -/
def startsWithGiven (text start : String) : Bool :=
  start != "" && text.startsWith start

namespace InternalScope

def isInternal (s : InternalScope) (specifier : String) : Bool :=
  specifier.startsWith "." ||
    startsWithGiven specifier s.root ||
    s.packages.contains specifier ||
    startsWithGiven specifier (s.scope.getD "")

def internalRecords (s : InternalScope) (records : List ImportRecord) : List ImportRecord :=
  records.filter fun r => s.isInternal r.specifier

/-- The internal specifiers of import records, in their order. -/
def dependencies (s : InternalScope) (records : List ImportRecord) : List String :=
  (s.internalRecords records).map ImportRecord.specifier

end InternalScope

/-- What was found in one source file. -/
structure SourceFile where
  path : String
  lineCount : Int := 0
  imports : List ImportRecord := []
  /-- The internal specifiers among the imports, in import order. -/
  dependencies : List String := []
  declarations : List Node := []
  /-- Whether the file could be read. -/
  readable : Bool := true
  /-- What was wrong with the file. -/
  complaints : List String := []

end SourceAtlas.Graph
