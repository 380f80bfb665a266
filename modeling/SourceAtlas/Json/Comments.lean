/-
# JSON with comments

Configuration files are JSON with line comments, block comments and a comma allowed before a closing
bracket. Without them the text is plain JSON. Nothing inside a string is touched.
-/

import SourceAtlas.Text.Basic

namespace SourceAtlas.Json

/-- Where in a text a reader is. -/
inductive Region where
  /-- Outside of strings and comments. -/
  | code
  | string
  /-- A comment up to the end of the line. -/
  | line
  /-- A comment between marks. -/
  | block
deriving DecidableEq, Repr

/-- Takes a comma away from the end of a text, where white space may follow it. The text is given
backwards. -/
def dropComma (backwards : List Char) : List Char :=
  let blank := backwards.takeWhile Text.isBlank
  match backwards.dropWhile Text.isBlank with
  | ',' :: rest => blank ++ rest
  | _ => backwards

/-- Copies a text without comments and without commas before closing brackets. What has been copied
so far is given backwards. -/
def copyCode : Region → List Char → List Char → List Char
  | _, copied, [] => copied.reverse
  | .string, copied, '\\' :: c :: rest => copyCode .string (c :: '\\' :: copied) rest
  | .string, copied, '"' :: rest => copyCode .code ('"' :: copied) rest
  | .string, copied, c :: rest => copyCode .string (c :: copied) rest
  | .line, copied, '\n' :: rest => copyCode .code ('\n' :: copied) rest
  | .line, copied, _ :: rest => copyCode .line copied rest
  | .block, copied, '*' :: '/' :: rest => copyCode .code copied rest
  | .block, copied, _ :: rest => copyCode .block copied rest
  | .code, copied, '"' :: rest => copyCode .string ('"' :: copied) rest
  | .code, copied, '/' :: '/' :: rest => copyCode .line copied rest
  | .code, copied, '/' :: '*' :: rest => copyCode .block copied rest
  | .code, copied, c :: rest =>
    if c == '\x7d' || c == ']' then copyCode .code (c :: dropComma copied) rest
    else copyCode .code (c :: copied) rest

/-- The text without comments and without commas before closing brackets. -/
def stripComments (text : List Char) : List Char := copyCode .code [] text

end SourceAtlas.Json
