import Cutscene.Engine.Run

/-! Running a chain. It runs instruction after instruction until it waits, is paused, has ended, or
has used up the steps it is given at a time. A fault is reported at its line, and the chain goes on
behind it. -/

namespace Cutscene.Engine

variable {ω : Type}

def advance (e : Engine ω) : Engine ω := e.withChain e.chain.advance

/-- Reports a fault at the line of a call, unless the fault has a place already. -/
def reportAt (e : Engine ω) (file : String) (call : Call) (f : Fault) : Engine ω :=
  e.report (f.located file call.line)

@[simp] theorem reportAt_chain (e : Engine ω) (file : String) (call : Call) (f : Fault) :
    (e.reportAt file call f).chain = e.chain := rfl

@[simp] theorem reportAt_scene (e : Engine ω) (file : String) (call : Call) (f : Fault) :
    (e.reportAt file call f).scene = e.scene := rfl

/-- Goes on after a call as its command says. -/
def heed (e : Engine ω) (file : String) (call : Call) : Flow → Engine ω
  | .proceed => e.advance
  | .jump => e
  | .suspend =>
    if e.chain.wait.isSome then e
    else (e.reportAt file call { cause := .waitMissing call.name }).advance

/-- Counts a passage of a label. -/
def pass (e : Engine ω) (label : String) : Except (Crash ω) (Engine ω) :=
  if e.chain.canCount label then .ok (e.withChain (e.chain.countVisit label))
  else .error ⟨.visits (e.chain.hereKey label), e.scene.world⟩

/-- Whether the chain has to stay where it is. -/
def isHeld (e : Engine ω) : Bool :=
  !e.chain.isRunning || e.chain.paused || e.chain.wait.isSome

/-- The engine with finished scripts left, and what it is to run next. -/
def ready (e : Engine ω) : Engine ω × Option (Position × Instruction) :=
  if e.isHeld then (e, none)
  else
    let e := e.withChain e.chain.settle
    (e, e.chain.position.bind fun p => p.instruction?.map fun i => (p, i))

/-- Reports that the steps are used up, unless that is reported and not yet taken. -/
def yield (e : Engine ω) (p : Position) (i : Instruction) : Engine ω :=
  if e.hasPending Cause.stepsCode then e
  else e.report {
    cause := .stepsExceeded e.options.maxSteps
    location := some ⟨p.script.file, i.line⟩ }

variable [World ω]

/-- Runs the command of a call and takes over what was found in a script that was read. A chain
that is deeper afterwards has started a script. -/
def attempt (e : Engine ω) (file : String) (call : Call) : Except (Crash ω) (Engine ω × Flow) :=
  match e.table.resolve call with
  | .error cause => .ok (e.reportAt file call { cause }, .proceed)
  | .ok command => do
    let (ran, outcome) ← command.handler.routine.run call e
    let ran := ran.reportLines
    match outcome with
    | .error f => return (ran.reportAt file call f, .proceed)
    | .ok flow => return (if e.chain.depth < ran.chain.depth then ran.announce else ran, flow)

def dispatch (e : Engine ω) (file : String) (call : Call) : Except (Crash ω) (Engine ω) := do
  let (e, flow) ← e.attempt file call
  return e.heed file call flow

/-- Runs the instruction at a position of the current script. -/
def step (e : Engine ω) (p : Position) : Instruction → Except (Crash ω) (Engine ω)
  | .marker name _ _ => return (← e.pass name).advance
  | .call c => (e.observe (.reached p.script.file p.line)).dispatch p.script.file c

/-- Runs at most so many instructions. -/
def steps : Nat → Engine ω → Except (Crash ω) (Engine ω)
  | 0, e => match e.ready with
    | (e, none) => .ok e
    | (e, some (p, i)) => .ok (e.yield p i)
  | n + 1, e => match e.ready with
    | (e, none) => .ok e
    | (e, some (p, i)) => do steps n (← e.step p i)

def execute (e : Engine ω) : Except (Crash ω) (Engine ω) := e.steps e.options.maxSteps

end Cutscene.Engine
