/-
# Changing a disk

Putting files on a disk, with the directories above them, and taking entries away.
-/

import SourceAtlas.Disk.Basic

namespace SourceAtlas

namespace Entry

/-- Sets the entry of a name: a known name keeps its place, a new one comes last. -/
def setEntry (entries : List (String × Entry)) (name : String) (entry : Entry) :
    List (String × Entry) :=
  if entries.any (·.1 == name) then
    entries.map fun e => if e.1 == name then (name, entry) else e
  else entries ++ [(name, entry)]

def entries : Entry → List (String × Entry)
  | .directory entries => entries
  | .file _ => []

/-- Puts an entry below another at a path of names; directories on the way are made. -/
def put (new : Entry) : List String → Entry → Entry
  | [], _ => new
  | name :: rest, here =>
    let below := (here.entries.lookup name).getD (.directory [])
    .directory (setEntry here.entries name (put new rest below))

def remove : List String → Entry → Entry
  | [], here => here
  | [name], here => .directory (here.entries.filter (·.1 != name))
  | name :: rest, here =>
    match here.entries.lookup name with
    | none => here
    | some below => .directory (setEntry here.entries name (remove rest below))

end Entry

namespace Disk

/-- A disk with nothing on it but the working directory. -/
def empty (workingDirectory : String) : Disk :=
  { root := Entry.put (.directory []) (Path.normalSegments workingDirectory) (.directory [])
    workingDirectory }

/-- Puts an entry at a path, making the directories above it. A directory that exists stays as it
is. -/
def put (disk : Disk) (path : String) (entry : Entry) : Disk :=
  if entry.isDirectory && disk.isDirectory path then disk
  else
    let segments := Path.normalSegments (disk.absolutePath path)
    { disk with root := Entry.put entry segments disk.root }

def remove (disk : Disk) (path : String) : Disk :=
  { disk with root := Entry.remove (Path.normalSegments (disk.absolutePath path)) disk.root }

/-- Writes a file whose directory has to exist. A path that ends in a slash can only be that of a
directory. -/
def writeFile (disk : Disk) (path : String) (bytes : List UInt8) : Except DiskFault Disk := do
  if path == "" then throw .notFound
  let whole := Path.dropFinalSlashes (disk.fromRoot path)
  let parent := Path.directory whole
  match ← disk.find (if parent == "" then "/" else parent) with
  | .file _ => throw .notADirectory
  | .directory _ =>
    if path.endsWith "/" then throw .isADirectory
    match disk.find path with
    | .ok (.directory _) => throw .isADirectory
    | .error .notADirectory => throw .notADirectory
    | _ => return disk.put path (.file bytes)

end Disk

end SourceAtlas
