/-
# Where a specifier leads

A relative or rooted module specifier is followed on disk from the directory of the importing file:
a directory stands for its index file, something that exists stands for itself, and otherwise the
known extensions are tried in order. Any other specifier names a package and leads nowhere.
-/

import SourceAtlas.Disk.Basic
import SourceAtlas.Graph.Node

namespace SourceAtlas

/-- The extensions tried when none are given. -/
def defaultExtensions : List String := [".ts", ".tsx", ".js", ".jsx"]

/-- The given extensions, or the default ones if there are none. -/
def extensionsOrDefault (extensions : List String) : List String :=
  if extensions.isEmpty then defaultExtensions else extensions

namespace Disk

def indexFile? (disk : Disk) (directory : String) (extensions : List String) : Option String :=
  ((extensionsOrDefault extensions).map fun e => Path.join directory ("index" ++ e)).find?
    disk.isFile

/-- The path that a specifier leads to from the importing file; only a relative one leads anywhere.
A directory stands for its index file, or for itself if it has none, and what does not exist is
tried with each extension in turn. -/
def resolve? (disk : Disk) (extensions : List String) (importer specifier : String) :
    Option String :=
  if Graph.isRelativeSpecifier specifier then
    let plain := Path.normalize (Path.join (Path.directory importer) specifier)
    let target :=
      if disk.isDirectory plain then (disk.indexFile? plain extensions).getD plain else plain
    if disk.doesExist target then some target
    else ((extensionsOrDefault extensions).map fun e => target ++ e).find? disk.isFile
  else none

end Disk

end SourceAtlas
