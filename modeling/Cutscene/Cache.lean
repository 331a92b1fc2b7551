import Cutscene.Dict
import Cutscene.Script.Parse
import Cutscene.ScriptPath

/-! The scripts read so far. A script is read and parsed once and kept under its path; the faults of
its lines are kept apart until someone takes them. Every object put into the cache has a number of
its own, so that two loads can be told to have given the same one. -/

namespace Cutscene

structure Cached where
  serial : Nat
  script : Script

structure Cache where
  /-- The source text at a path in normal form. -/
  read : String → Except Fault String
  scripts : Dict String Cached := []
  faults : List Fault := []
  nextSerial : Nat := 0
  /-- The paths asked of `read`, oldest first. -/
  reads : Array String := #[]

namespace Cache

def put (c : Cache) (path : String) (script : Script) : Cache × Cached :=
  let entry := ⟨c.nextSerial, script⟩
  ({ c with scripts := c.scripts.insert path entry, nextSerial := c.nextSerial + 1 }, entry)

def load (c : Cache) (path : String) : Cache × Except Fault Cached :=
  let key := ScriptPath.normalize path
  match c.scripts.get? key with
  | some entry => (c, .ok entry)
  | none =>
    let c := { c with reads := c.reads.push key }
    match c.read key with
    | .error f => (c, .error f)
    | .ok source =>
      let parsed := Script.parse key source
      let (c, entry) := { c with faults := c.faults ++ parsed.faults }.put key parsed.script
      (c, .ok entry)

def isNotFound (f : Fault) : Bool := f.code = Cause.notFoundCode

/-- Tries paths in order; a script that is not found lets the next one be tried. -/
def loadAny (c : Cache) : List String → Cache × Option (Except Fault Cached)
  | [] => (c, none)
  | path :: rest => match c.load path with
    | (c, .ok entry) => (c, some (.ok entry))
    | (c, .error f) => if isNotFound f then c.loadAny rest else (c, some (.error f))

def loadFirst (c : Cache) (paths : List String) : Cache × Except Fault Cached :=
  match c.loadAny paths with
  | (c, some found) => (c, found)
  | (c, none) => (c, .error { cause := .noCandidate paths })

/-- Takes the faults of the lines read since the last time. -/
def takeFaults (c : Cache) : Cache × List Fault := ({ c with faults := [] }, c.faults)

def insert (c : Cache) (script : Script) : Cache × Cached :=
  c.put (ScriptPath.normalize script.file) script

def contains (c : Cache) (path : String) : Bool :=
  c.scripts.contains (ScriptPath.normalize path)

def size (c : Cache) : Nat := c.scripts.length

def clear (c : Cache) : Cache := { c with scripts := [], faults := [] }

end Cache

end Cutscene
