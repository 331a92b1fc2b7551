import Cutscene.World

/-! Waits. A chain is held by one condition at a time: a clock, the player's answer to a dialog or
to a choice, or an activity of the world. Clocks and activities are polled; answers arrive as
events. -/

namespace Cutscene

inductive Wait where
  /-- Milliseconds that are left. -/
  | timer (remaining : Int)
  | dialog
  /-- The variable takes the number of the option. -/
  | selection (result : String)
  /-- The lines that are still to be shown after the one on screen. -/
  | talk (remaining : List TalkLine)
  | activity (a : Activity)
  deriving DecidableEq, Repr

namespace Wait

def name : Wait → String
  | .timer _ => "timer"
  | .dialog => "input"
  | .selection _ => "input"
  | .talk _ => "talkQueue"
  | .activity (.movement _) => "movement"
  | .activity .fadeIn => "fadeIn"
  | .activity .fadeOut => "fadeOut"
  | .activity (.action _) => "specialAction"
  | .activity .camera => "moveScreen"
  | .activity .trade => "buyMenu"

/-- Whether closing a dialog answers it. -/
def isDialog : Wait → Bool
  | .dialog => true
  | .talk _ => true
  | _ => false

/-- Whether choosing an option answers it. -/
def isSelection : Wait → Bool
  | .selection _ => true
  | _ => false

def isEventDriven (w : Wait) : Bool := w.isDialog || w.isSelection

/-- Lets a frame pass: the wait as it is afterwards, and whether it is over. -/
def poll {ω : Type} [World ω] (w : Wait) (world : ω) (elapsed : Int) :
    Except (Crash ω) (Wait × Bool) :=
  match w with
  | .timer remaining =>
    let left := remaining - elapsed
    if Interval.word64.contains left then .ok (.timer left, left ≤ 0) else .error ⟨.clock, world⟩
  | .activity a => .ok (w, World.isFinished world a)
  | _ => .ok (w, false)

/-- The lines a talk has still to show. -/
def talkQueue : Option Wait → List TalkLine
  | some (.talk remaining) => remaining
  | _ => []

end Wait

end Cutscene
