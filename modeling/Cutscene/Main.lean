import Cutscene.Program

/-! The command line. It takes a picture of the folders and files that the arguments name, runs the
program on the picture, and carries out what changed in it. -/

namespace Cutscene.Main

/-- The place that a path means from the folder `here`, with dots followed by name. -/
def placeOf (here : Disk.Place) (path : String) : Disk.Place :=
  let start := if Disk.isAbsolute path then [] else here
  (Disk.splitSlash path).foldl follow start
where
  follow (place : Disk.Place) (name : String) : Disk.Place :=
    if name = "" || name = "." then place
    else if name = ".." then place.dropLast
    else place ++ [name]

def pathOf (place : Disk.Place) : String := "/" ++ "/".intercalate place

/-- Takes up what stands at a place, with everything below it if `deep` says so. -/
partial def picture (deep : Bool) (place : Disk.Place) (d : Disk) : IO Disk := do
  let path := (← IO.currentDir) / pathOf place
  if !(← path.pathExists) then return d
  else if ← path.isDir then
    let d := d.put place .folder
    if !deep then return d
    let mut d := d
    for entry in ← path.readDir do
      let kind := (← entry.path.symlinkMetadata).type
      if kind == .dir || kind == .file then
        d ← picture deep (place ++ [entry.fileName]) d
    return d
  else
    let bytes ← IO.FS.readBinFile path
    return d.put place (.file (String.fromUTF8? bytes))

/-- Takes up a place and the folders on the way to it. -/
def pictureWithFolders (deep : Bool) (place : Disk.Place) (d : Disk) : IO Disk := do
  let mut d := d
  for n in List.range place.length do
    if 0 < n then d ← picture false (place.take n) d
  picture deep place d

/-- The paths that a request names, and whether it looks below them. -/
def pathsOf : CommandLine.Request → List (Bool × String)
  | .check scriptsDir => [(true, scriptsDir)]
  | .run o =>
    (true, o.scriptsDir) :: (o.vars.toList ++ o.stateOut.toList).map fun path => (false, path)

def carryOut (before after : Disk) : IO Unit := do
  for (place, entry) in after.entries do
    if before.entries.get? place != some entry then
      let path := (← IO.currentDir) / pathOf place
      match entry with
      | .folder => IO.FS.createDirAll path
      | .file (some text) => IO.FS.writeFile path text
      | .file none => pure ()

def usage : String :=
  "usage: run --scripts-dir DIR [--entry FILE] [--choice N]... [--vars FILE] [--max-frames N] " ++
    "[--frame-ms N] [--seed N] [--state-out FILE] | check --scripts-dir DIR"

/-- Runs the program on the arguments; a breakdown has an exit code of its own. -/
def program (arguments : List String) : IO UInt32 := do
  let here := placeOf [] (← IO.currentDir).toString
  let mut disk ← pictureWithFolders false here { here }
  match CommandLine.read arguments with
  | .error _ => IO.eprintln usage
  | .ok request =>
    for (deep, path) in pathsOf request do
      disk ← pictureWithFolders deep (placeOf here path) disk
  match Program.run disk arguments with
  | .error _ => return 101
  | .ok outcome =>
    carryOut disk outcome.disk
    for line in outcome.lines do IO.println line
    return UInt32.ofNat outcome.code

end Cutscene.Main

def main (arguments : List String) : IO UInt32 := Cutscene.Main.program arguments
