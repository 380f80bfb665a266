/-
# A disk

A disk is a finite tree of directories and files together with the working directory from which
relative paths are seen. Paths are followed segment by segment: a `..` leads to the directory above,
and everything before the last segment has to be a directory. A walk lists the files beneath a
directory by their paths relative to it.
-/

import SourceAtlas.Disk.Path
import SourceAtlas.Text.Quoted
import SourceAtlas.Text.Utf8

namespace SourceAtlas

/-- A file with its bytes, or a directory with its named entries. -/
inductive Entry where
  | file (bytes : List UInt8)
  | directory (entries : List (String × Entry))

/-- A directory tree and the working directory. -/
structure Disk where
  root : Entry
  workingDirectory : String

inductive DiskFault where
  | notFound
  | notADirectory
  | isADirectory
deriving DecidableEq, Repr

def DiskFault.message (path : String) : DiskFault → String
  | .notFound => s!"[Errno 2] No such file or directory: {Text.quoted path}"
  | .notADirectory => s!"[Errno 20] Not a directory: {Text.quoted path}"
  | .isADirectory => s!"[Errno 21] Is a directory: {Text.quoted path}"

namespace Entry

def isDirectory : Entry → Bool
  | .directory _ => true
  | .file _ => false

/-- The longest name, in bytes, that an entry can have. -/
def nameLimit : Nat := 255

/-- Whether an entry can have this name. -/
def canBeNamed (name : String) : Bool :=
  name.utf8ByteSize ≤ nameLimit && !name.toList.contains '\x00'

def child? (name : String) : Entry → Except DiskFault Entry
  | .file _ => .error .notADirectory
  | .directory entries =>
    if canBeNamed name then
      match entries.lookup name with
      | some entry => .ok entry
      | none => .error .notFound
    else .error .notFound

end Entry

namespace Disk

/-- Follows one segment from the entry at the head of the trail; the entries above it follow. -/
def followSegment (trail : List Entry) (segment : String) : Except DiskFault (List Entry) :=
  match trail with
  | [] => .error .notFound
  | here :: above =>
    if segment == "" || segment == "." then
      if here.isDirectory then .ok trail else .error .notADirectory
    else if segment == ".." then
      if here.isDirectory then .ok (if above.isEmpty then trail else above)
      else .error .notADirectory
    else do
      let next ← here.child? segment
      return next :: trail

/-- Follows segments one after the other. -/
def follow (trail : List Entry) (segments : List String) : Except DiskFault (List Entry) :=
  segments.foldlM followSegment trail

def fromRoot (disk : Disk) (path : String) : String :=
  if Path.isAbsolute path then path else Path.join disk.workingDirectory path

/-- The entry that a path leads to. Segments are followed as they stand: `..` leads nowhere from a
file or from something that is not there, although the normal form of the path has dropped both. -/
def find (disk : Disk) (path : String) : Except DiskFault Entry :=
  if path == "" then .error .notFound
  else do
    match ← follow [disk.root] (Path.rawSegments (disk.fromRoot path)) with
    | entry :: _ => return entry
    | [] => .error .notFound

def doesExist (disk : Disk) (path : String) : Bool :=
  (disk.find path).isOk

def isDirectory (disk : Disk) (path : String) : Bool :=
  match disk.find path with
  | .ok (.directory _) => true
  | _ => false

def isFile (disk : Disk) (path : String) : Bool :=
  match disk.find path with
  | .ok (.file _) => true
  | _ => false

/-- The absolute normal form of a path. It comes of the text of the path alone, so it can lead
somewhere although the path does not. -/
def absolutePath (disk : Disk) (path : String) : String :=
  Path.absolute disk.workingDirectory path

def readBytes (disk : Disk) (path : String) : Except DiskFault (List UInt8) :=
  match disk.find path with
  | .ok (.file bytes) => .ok bytes
  | .ok (.directory _) => .error .isADirectory
  | .error fault => .error fault

end Disk

inductive ReadFault where
  | disk (fault : DiskFault)
  | encoding (fault : Text.Utf8Fault)

def ReadFault.message (path : String) : ReadFault → String
  | .disk fault => fault.message path
  | .encoding fault => fault.message

namespace Disk

/-- The text of the file at a path: UTF-8, every line end read as a line feed. -/
def readText (disk : Disk) (path : String) : Except ReadFault (List Char) :=
  match disk.readBytes path with
  | .error fault => .error (.disk fault)
  | .ok bytes =>
    match Text.decodeUtf8 bytes with
    | .error fault => .error (.encoding fault)
    | .ok chars => .ok (Text.uniformLines chars)

end Disk

/-- The relative paths of the files among entries and beneath them. The place of the entries is
written in front of every name; a directory to skip is not entered. -/
def filesBeneath (skip : String → Bool) (place : String) : List (String × Entry) → List String
  | [] => []
  | (name, .file _) :: rest => (place ++ name) :: filesBeneath skip place rest
  | (name, .directory entries) :: rest =>
    (if skip (place ++ name) then [] else filesBeneath skip (place ++ name ++ "/") entries) ++
      filesBeneath skip place rest

namespace Disk

/-- The relative paths of the files beneath a directory; there are none beneath anything else. -/
def filesBelow (disk : Disk) (skip : String → Bool) (directory : String) : List String :=
  match disk.find directory with
  | .ok (.directory entries) => filesBeneath skip "" entries
  | _ => []

def fileCount (disk : Disk) : Nat :=
  (filesBeneath (fun _ => false) "" [("", disk.root)]).length

end Disk

end SourceAtlas
