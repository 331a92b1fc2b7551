import Cutscene.Command.Standard
import Cutscene.Engine.Host

/-! A director drives all chains of a scene: a global one, and one for each owner whose script runs.
The chains share the scene and nothing else. An answer of the player goes to the global chain if
that waits for one of its kind, and else to the first owned chain that does. -/

namespace Cutscene

/-- Owned chains stand under the keys of their owners. -/
structure Director (ω : Type) where
  options : Options := {}
  global : Runner
  owned : Dict String Runner := []
  scene : Scene ω
  observed : Bool := false

namespace Director

variable {ω : Type}

def ofOptions (options : Options) (scene : Scene ω) : Director ω :=
  { options, global := .ofOptions .standard options, scene }

/-- All chains in the order in which they are served. -/
def chains (d : Director ω) : List Runner := d.global :: d.owned.map Prod.snd

/-- Installs or removes the observer on every chain, and on those to come. -/
def observe (d : Director ω) (observed : Bool) : Director ω :=
  { d with
    global := { d.global with observed }
    owned := d.owned.map fun (k, r) => (k, { r with observed })
    observed }

def isAnyRunning (d : Director ω) : Bool := d.chains.any (·.chain.isRunning)

/-- The first wait for an answer of the player. -/
def pendingEvent? (d : Director ω) : Option Wait :=
  (d.chains.filterMap (·.chain.wait)).find? Wait.isEventDriven

/-- The place of a chain: the global one, or the key of an owned one. -/
abbrev Place := Option String

/-- The engine of a chain, as far as there is one. -/
def engine? (d : Director ω) : Place → Option (Engine ω)
  | none => some (.ofRunner d.global d.scene)
  | some k => (d.owned.get? k).map fun r => .ofRunner r d.scene

/-- Takes an engine back to its place. -/
def restore (d : Director ω) (place : Place) (e : Engine ω) : Director ω :=
  match place with
  | none => { d with global := e.toRunner, scene := e.scene }
  | some k => { d with owned := d.owned.insert k e.toRunner, scene := e.scene }

def accepts (kind : Wait → Bool) (r : Runner) : Bool := (r.chain.wait.map kind).getD false

/-- The chain that an answer of some kind goes to; without a taker it goes to the global one. -/
def taker (d : Director ω) (kind : Wait → Bool) : Place :=
  if accepts kind d.global then none
  else (d.owned.find? fun p => accepts kind p.2).map Prod.fst

/-- A chain that has ended and has nothing left to report is dropped. -/
def isKept (r : Runner) : Bool := r.chain.isRunning || !r.diagnostics.isEmpty

/-- Hands out the faults of all chains, the global one first, and drops chains that have ended. -/
def takeDiagnostics (d : Director ω) : Director ω × List Fault :=
  let cleared (r : Runner) : Runner := { r with diagnostics := #[] }
  ({ d with
    global := cleared d.global
    owned := (d.owned.map fun (k, r) => (k, cleared r)).filter (·.2.chain.isRunning) },
   d.chains.flatMap (·.diagnostics.toList))

/-- Ends every chain and forgets every script that was read. -/
def stop (d : Director ω) : Director ω :=
  { d with
    global := { d.global with chain := {} }
    owned := []
    scene := { d.scene with cache := d.scene.cache.clear } }

variable [World ω]

/-- What came of a request: the director after it, and why it failed if it did. -/
abbrev Answer (ω : Type) := Director ω × Except Fault Unit

/-- Runs a request on a chain; there is nothing to do on a chain that is not there. -/
def onChain (d : Director ω) (place : Place)
    (request : Engine ω → Except (Crash ω) (Engine.Answer ω)) : Except (Crash ω) (Answer ω) :=
  match d.engine? place with
  | none => .ok (d, .ok ())
  | some e => do
    let (e, result) ← request e
    return (d.restore place e, result)

def runScript (d : Director ω) (path : String) (owner : Option Owner) :
    Except (Crash ω) (Answer ω) :=
  d.onChain none fun e => e.runScript path owner

/-- Runs a script on its owner's chain, which is made where there is none. -/
def runOwned (d : Director ω) (owner : Owner) (path : String) : Except (Crash ω) (Answer ω) :=
  let fresh : Runner := { Runner.ofOptions .standard d.options with observed := d.observed }
  let runner := (d.owned.get? owner.key).getD fresh
  let d := { d with owned := d.owned.insert owner.key runner }
  d.onChain (some owner.key) fun e => e.runScript path (some owner)

def updateChain (elapsed : Int) (d : Director ω) (place : Place) :
    Except (Crash ω) (Director ω) :=
  (d.onChain place fun e => Engine.succeed (e.update elapsed)).map Prod.fst

/-- Lets a frame pass on every chain, and drops the owned ones that are done. -/
def update (d : Director ω) (elapsed : Int) : Except (Crash ω) (Director ω) := do
  let places : List Place := none :: d.owned.keys.map some
  let d ← places.foldlM (updateChain elapsed) d
  return { d with owned := d.owned.filter (isKept ·.2) }

def closeDialog (d : Director ω) : Except (Crash ω) (Answer ω) :=
  d.onChain (d.taker Wait.isDialog) Engine.closeDialog

def select (d : Director ω) (index : Int32) : Except (Crash ω) (Answer ω) :=
  d.onChain (d.taker Wait.isSelection) (Engine.select · index)

end Director

end Cutscene
