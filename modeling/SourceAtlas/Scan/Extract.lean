/-
# Looking at one source file

A file is read from disk and parsed in the language that its extension names; its imports and
declarations are what the graph is built from. A file that cannot be read is reported and counts as
empty. A text that is not of the language is reported as well, and its imports and declarations are
those of the tree that the parser makes of it all the same. How a parser recovers from such a text
is its own affair: scans are told about any parser.
-/

import SourceAtlas.Disk.Resolve
import SourceAtlas.Graph.SourceFile
import SourceAtlas.Grammar.Parse
import SourceAtlas.Syntax.Declaration
import SourceAtlas.Syntax.Import

namespace SourceAtlas.Scan

open SourceAtlas.Graph

/-- What a parser makes of a text. There is always a tree. -/
structure Parsed where
  tree : Grammar.Tree
  /-- Whether the text is not of the language and the tree is one that the parser recovered. -/
  flawed : Bool

/-- A parser of the languages in which files are written. -/
abbrev Parser := Grammar.Dialect → List Char → Parsed

/-- A parse that recovers nothing: a text without a tree is one node without parts. -/
def Parsed.ofTree? (text : List Char) : Option Grammar.Tree → Parsed
  | some tree => { tree, flawed := false }
  | none =>
    let whole : Syntax.NodeInfo Grammar.Span :=
      { label := ⟨0, text.length⟩, kind := "ERROR", text := some (String.ofList text)
        startRow := 0, endRow := Text.lineFeeds text, named := true, field := none }
    { tree := .node whole [], flawed := true }

/-- The parser that follows the grammars of the languages to the letter. -/
def strictParser : Parser := fun dialect text => .ofTree? text (Grammar.parse? dialect text)

/-- What the text of a file holds, by the tree that the parser makes of it. A flawed text earns a
complaint and loses nothing else. -/
def sourceOfText (parser : Parser) (disk : Disk) (extensions : List String)
    (scope : InternalScope) (path : String) (text : List Char) : SourceFile :=
  let parsed := parser (Grammar.dialectOfPath path) text
  let imports := Syntax.importRecords (disk.resolve? extensions path) parsed.tree
  { path
    lineCount := Text.lineCount (String.ofList text)
    imports
    dependencies := scope.dependencies imports
    declarations := Syntax.declarations path parsed.tree
    complaints := if parsed.flawed then ["syntax errors present"] else [] }

def readSource (parser : Parser) (disk : Disk) (extensions : List String) (scope : InternalScope)
    (path : String) : SourceFile :=
  match disk.readText path with
  | .error fault => { path, readable := false, complaints := [fault.message path] }
  | .ok text => sourceOfText parser disk extensions scope path text

end SourceAtlas.Scan
