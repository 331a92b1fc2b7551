import Cutscene.Text.Blank
import Cutscene.Text.Case

/-! Script paths. A path is kept with forward slashes, in small letters and relative; a bare name is
looked for beside the caller, in the folder of the current map, in the common folder, and last by
itself. -/

namespace Cutscene.ScriptPath

def dropDots : List Char → List Char
  | '.' :: '/' :: s => dropDots s
  | s => s

def normalizeChars (raw : List Char) : List Char :=
  let slashed := (Text.trim raw).map fun c => if c = '\\' then '/' else c
  (dropDots (Text.lower slashed)).dropWhile (· = '/')

def normalize : String → String := Text.onChars normalizeChars

/-- The text before the last `c`. -/
def beforeLast? (c : Char) : List Char → Option (List Char)
  | [] => none
  | x :: s => match beforeLast? c s with
    | some t => some (x :: t)
    | none => if x = c then some [] else none

/-- The text after the last `c`, or all of it. -/
def afterLast (c : Char) (s : List Char) : List Char :=
  (s.reverse.takeWhile (· ≠ c)).reverse

/-- A map's name: its file name up to the first point. -/
def mapName (map : String) : List Char :=
  (afterLast '/' (normalizeChars map.toList)).takeWhile (· ≠ '.')

/-- Drops each path that repeats the one just before it. -/
def dropRepeats : List String → List String
  | [] => []
  | [p] => [p]
  | p :: q :: rest => if p = q then dropRepeats (q :: rest) else p :: dropRepeats (q :: rest)

/-- The paths to try for `target`, in order, when the script `current` runs on the map `map`. -/
def candidates (target : String) (current : Option String) (map : String) : List String :=
  let name := normalize target
  if name.toList.contains '/' then [name]
  else
    let beside := match current.bind fun file => beforeLast? '/' file.toList with
      | some folder => [String.ofList folder ++ "/" ++ name]
      | none => []
    let onMap := match mapName map with
      | [] => []
      | m => ["script/map/" ++ String.ofList m ++ "/" ++ name]
    dropRepeats (beside ++ onMap ++ ["script/common/" ++ name, name])

end Cutscene.ScriptPath
