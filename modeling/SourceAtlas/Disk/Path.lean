/-
# Paths

Paths are texts with segments between slashes. These operations look at the text alone and never at
a disk. A path is normal if it has no empty segment, no `.` and no `..` that another segment could
cancel; exactly two slashes at the start are kept apart from one.
-/

import SourceAtlas.Text.Basic

namespace SourceAtlas.Path

open Text

/-- The segments of a path, the empty ones included. -/
def rawSegments (path : String) : List String :=
  (splitAtChar '/' path.toList).map String.ofList

/-- Segments with a slash between each two. -/
def joinSegments (segments : List String) : String :=
  "/".intercalate segments

/-- Whether a path starts at the root. -/
def isAbsolute (path : String) : Bool :=
  path.startsWith "/"

/-- How many slashes a normal path keeps at its start: two stay two, more are one. -/
def leadingSlashes (path : String) : Nat :=
  match path.toList with
  | '/' :: '/' :: '/' :: _ => 1
  | '/' :: '/' :: _ => 2
  | '/' :: _ => 1
  | _ => 0

/-- Adds a segment to the normal segments before it, which stand in reverse. A `..` cancels the
segment before it; at the root it is dropped, and at the start of a relative path it stays. -/
def pushSegment (absolute : Bool) (done : List String) (segment : String) : List String :=
  if segment == "" || segment == "." then done
  else if segment == ".." then
    match done with
    | [] => if absolute then [] else [".."]
    | last :: rest => if last == ".." then ".." :: done else rest
  else segment :: done

def normalSegments (path : String) : List String :=
  ((rawSegments path).foldl (pushSegment (isAbsolute path)) []).reverse

def normalize (path : String) : String :=
  let slashes := String.ofList (List.replicate (leadingSlashes path) '/')
  let whole := slashes ++ joinSegments (normalSegments path)
  if whole == "" then "." else whole

/-- The path `rest` seen from `base`; an absolute `rest` stands for itself. -/
def join (base rest : String) : String :=
  if isAbsolute rest then rest
  else if base == "" || base.endsWith "/" then base ++ rest
  else base ++ "/" ++ rest

/-- The characters up to and including the last slash, and those after it. -/
def splitLast (path : String) : List Char × List Char :=
  let name := (path.toList.reverse.takeWhile (· != '/')).reverse
  (path.toList.take (path.length - name.length), name)

def baseName (path : String) : String :=
  String.ofList (splitLast path).2

/-- The part before the last slash, without slashes at its end unless it has nothing else. -/
def directory (path : String) : String :=
  let head := (splitLast path).1
  if head.all (· == '/') then String.ofList head
  else String.ofList (head.reverse.dropWhile (· == '/')).reverse

/-- A path without the slashes at its end, unless it has nothing else. -/
def dropFinalSlashes (path : String) : String :=
  if path.toList.all (· == '/') then path
  else String.ofList (path.toList.reverse.dropWhile (· == '/')).reverse

/-- The extension of the last segment, with its dot. Dots at the start of a name open no
extension. -/
def extension (path : String) : String :=
  let name := (splitLast path).2.dropWhile (· == '.')
  let tail := name.reverse.takeWhile (· != '.')
  if tail.length < name.length then String.ofList ('.' :: tail.reverse) else ""

/-- The absolute normal form of a path seen from a working directory. -/
def absolute (workingDirectory path : String) : String :=
  normalize (if isAbsolute path then path else join workingDirectory path)

end SourceAtlas.Path
