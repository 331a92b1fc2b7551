import Cutscene.Director
import Cutscene.ScriptFolder
import Cutscene.World.Recording

/-! Runs without a player. Frame by frame, a dialog is closed as soon as it shows, a choice takes
the next of the answers given beforehand, and else time passes; the run ends with its last chain or
after a bounded number of frames. -/

namespace Cutscene

namespace Headless

structure Plan where
  entry : String
  choices : List Int32 := []
  maxFrames : Nat := 600
  frameMs : Int := 16

inductive Ending where
  | done
  | outOfFrames
  deriving DecidableEq, Repr

/-- Why a run breaks off. -/
inductive Halt where
  | fault (f : Fault)
  | breakdown (b : Breakdown)

/-- A run under way. -/
structure Progress where
  director : Director Recording
  choices : List Int32
  diagnostics : Array Fault := #[]
  frames : Nat := 0
  dialogs : Nat := 0
  selections : Array Int32 := #[]

structure Report where
  entry : String
  ending : Ending
  frames : Nat
  dialogs : Nat
  selections : List Int32
  calls : List String
  diagnostics : List Fault
  vars : Dict String Int32

/-- A request of the director that has to succeed. -/
def demand (r : Except (Crash Recording) (Director.Answer Recording)) :
    Except Halt (Director Recording) :=
  match r with
  | .error crash => .error (.breakdown crash.breakdown)
  | .ok (_, .error f) => .error (.fault f)
  | .ok (d, .ok ()) => .ok d

/-- Takes the diagnostics over into the run. -/
def collect (p : Progress) : Progress :=
  let (director, faults) := p.director.takeDiagnostics
  { p with director, diagnostics := p.diagnostics ++ faults.toArray }

/-- Lives through one frame: an answer, if one is waited for, or the passing of time. -/
def frame (frameMs : Int) (p : Progress) : Except Halt Progress := do
  let p := { p with frames := p.frames + 1 }
  match p.director.pendingEvent? with
  | some (.selection _) =>
    let choice := p.choices.head?.getD 0
    let director ← demand (p.director.select choice)
    return { p with director, choices := p.choices.tail, selections := p.selections.push choice }
  | some _ =>
    let director ← demand p.director.closeDialog
    return { p with director, dialogs := p.dialogs + 1 }
  | none => match p.director.update frameMs with
    | .ok director => return { p with director }
    | .error crash => .error (.breakdown crash.breakdown)

/-- Lives through at most so many frames. -/
def frames (frameMs : Int) : Nat → Progress → Except Halt (Ending × Progress)
  | 0, p =>
    let p := collect p
    .ok (if p.director.isAnyRunning then .outOfFrames else .done, p)
  | n + 1, p =>
    let p := collect p
    if p.director.isAnyRunning then do frames frameMs n (← frame frameMs p)
    else .ok (.done, p)

def report (plan : Plan) (ending : Ending) (p : Progress) : Report where
  entry := plan.entry
  ending
  frames := p.frames
  dialogs := p.dialogs
  selections := p.selections.toList
  calls := p.director.scene.world.calls
  diagnostics := p.diagnostics.toList
  vars := p.director.scene.world.vars

def run (scripts : Shelf) (vars : Dict String Int32) (options : Options) (plan : Plan) :
    Except Halt Report := do
  let world : Recording := { vars }
  let cache : Cache := { read := (Shelf.ofFiles scripts).read }
  let director := Director.ofOptions options { world, cache }
  let director ← demand (director.runScript plan.entry none)
  let (ending, p) ← frames plan.frameMs plan.maxFrames { director, choices := plan.choices }
  return report plan ending p

end Headless

end Cutscene
