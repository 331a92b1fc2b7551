import Cutscene.Dict
import Cutscene.Disk.Error

/-! A tree of files as a map from places to what stands there. A place is the list of names from the
root, and the order of places is the order of a walk that visits the names of a folder in order and
each folder before its contents. -/

namespace Cutscene

namespace Disk

abbrev Place := List String

inductive Entry where
  | folder
  /-- The text of a file, or none for bytes that are no text. -/
  | file (text : Option String)
  deriving DecidableEq

end Disk

structure Disk where
  entries : Dict Disk.Place Disk.Entry := []
  /-- The place from which paths are looked up. -/
  here : Disk.Place := []

namespace Disk

def splitSlash (path : String) : List String :=
  (path.toList.splitOn '/').map String.ofList

def isAbsolute (path : String) : Bool := path.toList.head? = some '/'

/-- What stands at a place; at the root there is always a folder. -/
def entry? (d : Disk) (place : Place) : Option Entry :=
  if place = [] then some .folder else d.entries.get? place

def isFolderAt (d : Disk) (place : Place) : Bool := d.entry? place = some .folder

/-- A name has at most 255 bytes. -/
def isTooLong (name : String) : Bool := 255 < name.utf8ByteSize

/-- Refuses a path that no lookup takes, whatever the disk holds: one with a NUL in it, or one of
more than 4095 bytes. -/
def vet (path : String) : Except Error Unit :=
  if path.toList.contains '\x00' then .error .nulInPath
  else if 4095 < path.utf8ByteSize then .error .nameTooLong
  else .ok ()

/-- Follows names from a place. Every name but the last has to be a folder's. -/
def follow (d : Disk) (place : Place) : List String → Except Error Place
  | [] => .ok place
  | name :: rest =>
    if !d.isFolderAt place then .error .notDirectory
    else if name = "" || name = "." then d.follow place rest
    else if name = ".." then d.follow place.dropLast rest
    else if isTooLong name then .error .nameTooLong
    else if (d.entry? (place ++ [name])).isSome then d.follow (place ++ [name]) rest
    else .error .missing

/-- Where the lookup of a path begins. -/
def base (d : Disk) (path : String) : Place := if isAbsolute path then [] else d.here

def locate (d : Disk) (path : String) : Except Error Place := do
  vet path
  if path = "" then .error .missing else d.follow (d.base path) (splitSlash path)

def find? (d : Disk) (path : String) : Option Entry :=
  match d.locate path with
  | .ok place => d.entry? place
  | .error _ => none

def exists? (d : Disk) (path : String) : Bool := (d.find? path).isSome

def isFolder (d : Disk) (path : String) : Bool := d.find? path = some .folder

/-- Reads a file that was met on a walk, by the path that leads to it. -/
def readMet (path : String) (text : Option String) : Except Error String := do
  vet path
  match text with
  | some text => .ok text
  | none => .error .notText

def readText (d : Disk) (path : String) : Except Error String := do
  match d.entry? (← d.locate path) with
  | some (.file (some text)) => .ok text
  | some (.file none) => .error .notText
  | some .folder => .error .isDirectory
  | none => .error .missing

/-- The files below a place, by their names from there, in the order of a walk. -/
def filesBelow (d : Disk) (place : Place) : List (List String × Option String) :=
  d.entries.filterMap fun (p, e) =>
    match e with
    | .file text =>
      if place.isPrefixOf p && place.length < p.length then some (p.drop place.length, text)
      else none
    | .folder => none

def put (d : Disk) (place : Place) (e : Entry) : Disk :=
  { d with entries := d.entries.insert place e }

def dropTrailing (p : String → Bool) (names : List String) : List String :=
  (names.reverse.dropWhile p).reverse

/-- The folder in which a path's last name stands, and that name. -/
def parting (d : Disk) (path : String) : Except Error (Place × String) := do
  vet path
  let names := dropTrailing (· = "") (splitSlash path)
  match names.getLast? with
  | none => if path = "" then .error .missing else .ok ([], ".")
  | some name =>
    let folder ← d.follow (d.base path) names.dropLast
    if d.isFolderAt folder then .ok (folder, name) else .error .notDirectory

def isDots (name : String) : Bool := name = "." || name = ".."

def makeFolder (d : Disk) (path : String) : Except Error Disk := do
  let (folder, name) ← d.parting path
  if isDots name then .error .exists
  else if isTooLong name then .error .nameTooLong
  else if (d.entry? (folder ++ [name])).isSome then .error .exists
  else .ok (d.put (folder ++ [name]) .folder)

/-- Writes a file, anew or over what it held. -/
def writeText (d : Disk) (path text : String) : Except Error Disk := do
  let (folder, name) ← d.parting path
  if isDots name then
    let _ ← d.locate path
    .error .isDirectory
  else if path.toList.getLast? = some '/' then .error .isDirectory
  else if isTooLong name then .error .nameTooLong
  else if d.isFolderAt (folder ++ [name]) then .error .isDirectory
  else .ok (d.put (folder ++ [name]) (.file (some text)))

def isEmptyName (name : String) : Bool := name = "" || name = "."

/-- The path without its last name; names that change nothing do not count. -/
def parent? (path : String) : Option String :=
  let names := splitSlash path
  let (lead, body) := match names with
    | "" :: rest => if isAbsolute path then ("/", rest) else ("", names)
    | "." :: rest => (".", rest)
    | _ => ("", names)
  match dropTrailing isEmptyName body with
  | [] => if lead = "." then some "" else none
  | trimmed =>
    let rest := "/".intercalate (dropTrailing isEmptyName trimmed.dropLast)
    some (if lead = "." then (if rest = "" then "." else "./" ++ rest) else lead ++ rest)

/-- Makes a folder and the folders that it needs. The fuel bounds the length of the path. -/
def makeFoldersFrom (d : Disk) : Nat → String → Except Error Disk
  | 0, _ => .ok d
  | fuel + 1, path =>
    if path = "" then .ok d
    else match d.makeFolder path with
      | .ok d => .ok d
      | .error .missing => do
        let d ← d.makeFoldersFrom fuel ((parent? path).getD "")
        match d.makeFolder path with
        | .ok d => .ok d
        | .error e => if d.isFolder path then .ok d else .error e
      | .error e => if d.isFolder path then .ok d else .error e

def makeFolders (d : Disk) (path : String) : Except Error Disk :=
  d.makeFoldersFrom (path.length + 1) path

end Disk

end Cutscene
