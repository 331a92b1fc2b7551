import Cutscene.Engine.Execute

/-! What the host does with an engine: it starts scripts, lets time pass, and brings the player's
answers. -/

namespace Cutscene.Engine

variable {ω : Type} [World ω]

/-- What came of a request: the engine after it, and why it failed if it did. -/
abbrev Answer (ω : Type) := Engine ω × Except Fault Unit

def succeed (e : Except (Crash ω) (Engine ω)) : Except (Crash ω) (Answer ω) :=
  e.map fun e => (e, .ok ())

def refuse (e : Engine ω) (f : Fault) : Except (Crash ω) (Answer ω) := .ok (e, .error f)

/-- The calls that would be open above a script started now. -/
def nextDepth (e : Engine ω) : Nat := e.chain.depth + if e.chain.script?.isSome then 1 else 0

/-- Starts a script on its own or on top of the one that runs. -/
def start (e : Engine ω) (script : Script) (owner : Option Owner) : Except (Crash ω) (Answer ω) :=
  if e.options.maxDepth < e.nextDepth then
    let f : Fault := { cause := .depthExceeded e.options.maxDepth script.file }
    (e.report f).refuse f
  else
    let chain := { e.chain with owner := owner <|> e.chain.owner }
    succeed ((e.withChain (chain.enter script)).announce.execute)

/-- A chain without a script is ended for good; one that has a script goes on as if nothing had
been. -/
def failStart (e : Engine ω) (f : Fault) : Except (Crash ω) (Answer ω) :=
  let e := if e.chain.script?.isSome then e else e.withChain e.chain.finish
  (e.report f).refuse f

def runScript (e : Engine ω) (path : String) (owner : Option Owner) :
    Except (Crash ω) (Answer ω) :=
  let (cache, found) := e.scene.cache.loadFirst (e.candidates path)
  let e := (e.withCache cache).reportLines
  match found with
  | .ok entry => e.start entry.script owner
  | .error f => e.failStart f

/-- Runs a source text that no loader knows. -/
def runContent (e : Engine ω) (file source : String) (owner : Option Owner) :
    Except (Crash ω) (Answer ω) :=
  let parsed := Script.parse (ScriptPath.normalize file) source
  (parsed.faults.foldl report e).start parsed.script owner

/-- Ends the wait and goes on behind the command that asked for it. -/
def goOn (e : Engine ω) : Except (Crash ω) (Engine ω) :=
  (e.withChain { e.chain with wait := none }.advance).execute

def closeDialog (e : Engine ω) : Except (Crash ω) (Answer ω) :=
  match e.chain.wait with
  | some (.talk (line :: rest)) => do
    let e ← e.perform (.dialog line.text line.portrait)
    return (e.park (.talk rest), .ok ())
  | some (.talk []) => succeed e.goOn
  | some .dialog => succeed e.goOn
  | _ => e.refuse { cause := .noDialog }

def select (e : Engine ω) (index : Int32) : Except (Crash ω) (Answer ω) :=
  match e.chain.wait with
  | some (.selection result) => succeed (e.assign result index).goOn
  | _ => e.refuse { cause := .noSelection }

/-- Lets a frame of so many milliseconds pass. -/
def update (e : Engine ω) (elapsed : Int) : Except (Crash ω) (Engine ω) :=
  if !e.chain.isRunning || e.chain.paused then .ok e
  else match e.chain.wait with
    | none => e.execute
    | some wait => do
      let (wait, ended) ← wait.poll e.scene.world elapsed
      let e := e.park wait
      if ended then e.goOn else return e

end Cutscene.Engine
