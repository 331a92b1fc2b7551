import Cutscene.Disk
import Cutscene.Fault
import Cutscene.ScriptPath

/-! Scripts in memory and in a folder of a disk, under their paths in normal form. Of two files
whose paths have one normal form, the one that a walk meets last stands for both. -/

namespace Cutscene

/-- Source texts by path. -/
abbrev Shelf := Dict String String

namespace Shelf

def ofFiles (files : List (String × String)) : Shelf :=
  Dict.ofPairs (files.map fun (path, source) => (ScriptPath.normalize path, source))

def put (s : Shelf) (path source : String) : Shelf := s.insert (ScriptPath.normalize path) source

def read (s : Shelf) (path : String) : Except Fault String :=
  match s.get? path with
  | some source => .ok source
  | none => .error { cause := .scriptUnavailable path }

end Shelf

namespace ScriptFolder

/-- The path of something below a folder, as it is shown. -/
def below (root : String) (names : List String) : String :=
  let path := "/".intercalate names
  if root.toList.getLast? = some '/' then root ++ path else root ++ "/" ++ path

/-- The files of a folder by their paths in normal form, with the paths that lead to them. -/
def index (d : Disk) (root : String) : Except Fault (Dict String (String × Option String)) :=
  match d.locate root with
  | .ok place =>
    if d.isFolderAt place then
      .ok (Dict.ofPairs ((d.filesBelow place).map fun (names, text) =>
        (ScriptPath.normalize ("/".intercalate names), below root names, text)))
    else .error { cause := .rootNotDirectory root }
  | .error _ => .error { cause := .rootNotDirectory root }

def read (index : Dict String (String × Option String)) (root path : String) :
    Except Fault String :=
  match index.get? path with
  | none => .error { cause := .scriptNotUnder path root }
  | some (file, text) => match Disk.readMet file text with
    | .ok source => .ok source
    | .error reason => .error { cause := .scriptUnreadable file reason }

/-- Whether a file name ends in `.txt`, in any case, with something before the point. -/
def isScriptName (name : String) : Bool :=
  match name.toList.reverse with
  | c :: b :: a :: '.' :: _ :: _ =>
    [a, b, c].map Char.toLower = ['t', 'x', 't']
  | _ => false

/-- The texts of the scripts among the files below a folder; the first that cannot be read
fails. -/
def texts (root : String) : List (List String × Option String) →
    Except Fault (List (String × String))
  | [] => .ok []
  | (names, text) :: rest =>
    if !isScriptName (names.getLast?.getD "") then texts root rest
    else match Disk.readMet (below root names) text with
      | .error reason => .error { cause := .sourceUnreadable (below root names) reason }
      | .ok source => (texts root rest).map (("/".intercalate names, source) :: ·)

/-- A path as seen from the root. -/
def absolute (d : Disk) (path : String) : String :=
  if Disk.isAbsolute path then path else below ("/" ++ "/".intercalate d.here) [path]

/-- Every script below a folder. -/
def load (d : Disk) (scriptsDir : String) : Except Fault Shelf :=
  let root := absolute d scriptsDir
  match d.locate root with
  | .error _ => .error { cause := .sourceMissing root }
  | .ok place =>
    if !d.isFolderAt place then .error { cause := .sourceNotDirectory root }
    else match texts root (d.filesBelow place) with
      | .error f => .error f
      | .ok [] => .error { cause := .sourceEmpty root }
      | .ok files => .ok (Shelf.ofFiles files)

end ScriptFolder

end Cutscene
