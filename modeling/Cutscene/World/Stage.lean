import Cutscene.World.Recording

/-! A world that can be exchanged between scripts: a recording, or one that has nothing but
variables. -/

namespace Cutscene

/-- A world of variables only. -/
structure Ledger where
  vars : Dict String Int32 := []

instance : World Ledger where
  getVariable w name := (w.vars.get? name).getD 0
  setVariable w name value := { w with vars := w.vars.insert name value }

inductive Stage where
  | recording (w : Recording)
  | ledger (w : Ledger)

namespace Stage

def vars : Stage → Dict String Int32
  | .recording w => w.vars
  | .ledger w => w.vars

/-- The effects asked for so far; a world of variables keeps none. -/
def effects : Stage → Array Effect
  | .recording w => w.effects
  | .ledger _ => #[]

def perform : Stage → Effect → Except (Crash Stage) Stage
  | .recording w, e => match World.perform w e with
    | .ok w => .ok (.recording w)
    | .error crash => .error ⟨crash.breakdown, .recording crash.world⟩
  | .ledger w, e => match World.perform w e with
    | .ok w => .ok (.ledger w)
    | .error crash => .error ⟨crash.breakdown, .ledger crash.world⟩

instance : World Stage where
  getVariable
    | .recording w => World.getVariable w
    | .ledger w => World.getVariable w
  setVariable
    | .recording w, name, value => .recording (World.setVariable w name value)
    | .ledger w, name, value => .ledger (World.setVariable w name value)
  talkLines?
    | .recording w => World.talkLines? w
    | .ledger w => World.talkLines? w
  mapPath
    | .recording w => World.mapPath w
    | .ledger w => World.mapPath w
  money
    | .recording w => World.money w
    | .ledger w => World.money w
  goodsCount
    | .recording w => World.goodsCount w
    | .ledger w => World.goodsCount w
  perform := perform
  isFinished
    | .recording w => World.isFinished w
    | .ledger w => World.isFinished w

end Stage

end Cutscene
