/-
# The program

The program takes a picture of the directories that its arguments name, runs on it, and does what
the run asks for: it prints lines and writes at most one file. It follows no links to directories.
-/

import SourceAtlas.CommandLine.Run

namespace SourceAtlas

open CommandLine Settings

/-- The place of an absolute path on the real disk. -/
def placeOf (path : String) : IO.FS.DirEntry := { root := "/", fileName := path }

def isRealDirectory (place : IO.FS.DirEntry) : IO Bool := place.path.isDir

/-- The entry at a place, with all that is below it. -/
partial def loadEntry (place : IO.FS.DirEntry) : IO Entry := do
  if ← isRealDirectory place then
    let isLink := (← place.path.symlinkMetadata).type == .symlink
    if isLink then return .directory []
    let mut entries := []
    for child in ← place.path.readDir do
      try
        entries := (child.fileName, ← loadEntry child) :: entries
      catch _ => pure ()
    return .directory entries
  else
    let bytes ← IO.FS.readBinFile place.path
    return .file bytes.toList

/-- The disk with the real entry at a path, if there is one. -/
def Disk.withReal (disk : Disk) (path : String) : IO Disk := do
  let path := disk.absolutePath path
  try
    let entry ← loadEntry (placeOf path)
    return { disk with root := Entry.put entry (Path.normalSegments path) disk.root }
  catch _ => return disk

/-- The disk with an empty directory at a path, if there is a real one. -/
def Disk.withDirectory (disk : Disk) (path : String) : IO Disk := do
  let path := disk.absolutePath path
  if ← isRealDirectory (placeOf path) then return disk.put path (.directory []) else return disk

/-- The disk with the real file at a path; of a directory it shows only that it is there. -/
def Disk.withFile (disk : Disk) (path : String) : IO Disk := do
  if ← isRealDirectory (placeOf (disk.absolutePath path)) then disk.withDirectory path
  else disk.withReal path

/-- The disk with a configuration file and those that it extends. -/
partial def Disk.withConfig (disk : Disk) (path : String) : IO Disk := do
  if disk.isFile path then return disk
  let disk ← disk.withFile path
  match readConfig disk path with
  | .error _ => return disk
  | .ok members =>
    match extendedPath? (Path.directory path) members with
    | none => return disk
    | some parent => disk.withConfig (disk.absolutePath parent)

/-- A picture of all that a run looks at. -/
def pictureFor (arguments : Arguments) : IO Disk := do
  let here ← IO.currentDir
  let disk := Disk.empty here.toString
  let output := disk.absolutePath (arguments.output.getD "")
  let disk ← disk.withDirectory (Path.directory output)
  let disk ← disk.withDirectory output
  let disk ← disk.withConfig (disk.absolutePath (arguments.config.getD ""))
  let disk ← disk.withReal (arguments.root.getD "")
  match arguments.options with
  | none => return disk
  | some path => disk.withFile path

def readEnvironment : IO Environment := do
  let debug ← IO.getEnv "MODGRAPH_DEBUG"
  let workers ← IO.getEnv "MODGRAPH_MAX_WORKERS"
  return { debug, workers }

/-- How the program is called. -/
def usageText : String :=
  s!"usage: {programName} {scanName} -t TSCONFIG -r ROOT [-o OUTPUT] [--options OPTIONS] " ++
    "[--percentile PERCENTILE] [--debug]"

/-- Says why there is no scan. -/
def printStop (stop : Stop) : IO UInt32 := do
  match stop.message? with
  | none =>
    IO.println usageText
    return 0
  | some message =>
    IO.eprintln usageText
    IO.eprintln message
    return 2

/-- Does what a run asks for. -/
def printResult (result : RunResult) : IO UInt32 := do
  if let some (path, text) := result.saved then IO.FS.writeFile path text
  for line in result.errors do IO.eprintln line
  for line in result.output do IO.println line
  match result.ending with
  | .status code => return code.toUInt32
  | .brokenOff fault =>
    IO.eprintln fault.message
    return 1

end SourceAtlas

/-- Runs the program on its arguments. -/
def main (texts : List String) : IO UInt32 := do
  match SourceAtlas.CommandLine.readArguments texts with
  | .error stop => SourceAtlas.printStop stop
  | .ok arguments =>
    let disk ← SourceAtlas.pictureFor arguments
    let env ← SourceAtlas.readEnvironment
    SourceAtlas.printResult (SourceAtlas.CommandLine.runScan disk env arguments)
