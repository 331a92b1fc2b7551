import Cutscene.Engine

/-! Running a routine on an engine. Whatever the routine has changed before a fault stays changed;
a breakdown leaves the world as it then stood. -/

namespace Cutscene

variable {ω : Type} [World ω]

namespace Engine

def view (e : Engine ω) (call : Call) : View where
  call
  owner := e.chain.owner
  value := World.getVariable e.scene.world
  map := World.mapPath e.scene.world
  money := World.money e.scene.world
  goodsCount := World.goodsCount e.scene.world

def park (e : Engine ω) (wait : Wait) : Engine ω := e.withChain { e.chain with wait := some wait }

/-- A chain never waits for two things at once. -/
def beginWait (e : Engine ω) (wait : Wait) : Except (Crash ω) (Engine ω) :=
  match e.chain.wait with
  | none => .ok (e.park wait)
  | some active => .error ⟨.secondWait wait.name active.name, e.scene.world⟩

def assign (e : Engine ω) (name : String) (value : Int32) : Engine ω :=
  e.withWorld (World.setVariable e.scene.world name value)

def perform (e : Engine ω) (effect : Effect) : Except (Crash ω) (Engine ω) :=
  (World.perform e.scene.world effect).map e.withWorld

/-- The paths under which the chain looks for a script. -/
def candidates (e : Engine ω) (target : String) : List String :=
  ScriptPath.candidates target e.chain.file? (World.mapPath e.scene.world)

section Fields

variable (e : Engine ω)

omit [World ω] in
@[simp] theorem park_chain (wait : Wait) : (e.park wait).chain = { e.chain with wait := some wait } :=
  rfl

omit [World ω] in
@[simp] theorem park_table (wait : Wait) : (e.park wait).table = e.table := rfl

omit [World ω] in
@[simp] theorem park_options (wait : Wait) : (e.park wait).options = e.options := rfl

omit [World ω] in
@[simp] theorem park_scene (wait : Wait) : (e.park wait).scene = e.scene := rfl

@[simp] theorem assign_toRunner (name : String) (value : Int32) :
    (e.assign name value).toRunner = e.toRunner := rfl

@[simp] theorem assign_cache (name : String) (value : Int32) :
    (e.assign name value).scene.cache = e.scene.cache := rfl

/-- An effect changes the world and nothing else of the engine. -/
theorem perform_eq_ok {effect : Effect} {e e' : Engine ω} :
    e.perform effect = .ok e' ↔
      ∃ world, World.perform e.scene.world effect = .ok world ∧ e.withWorld world = e' := by
  unfold perform
  cases World.perform e.scene.world effect with
  | error crash => simp [Except.map]
  | ok world => simp [Except.map]

omit [World ω] in
theorem beginWait_of_free {e : Engine ω} (h : e.chain.wait = none) (wait : Wait) :
    e.beginWait wait = .ok (e.park wait) := by
  rw [beginWait, h]

end Fields

end Engine

namespace Routine

variable {α : Type}

/-- Runs a routine for a call: the engine after it, and what came of it. -/
def run (call : Call) : Routine α → Engine ω → Except (Crash ω) (Engine ω × Except Fault α)
  | .done a, e => .ok (e, .ok a)
  | .fail f, e => .ok (e, .error f)
  | .breakDown b, e => .error ⟨b, e.scene.world⟩
  | .look next, e => (next (e.view call)).run call e
  | .chain next, e => (next e.chain).run call e
  | .options next, e => (next e.options).run call e
  | .setChain c next, e => next.run call (e.withChain c)
  | .beginWait wait next, e => do next.run call (← e.beginWait wait)
  | .setVariable name value next, e => next.run call (e.assign name value)
  | .perform effect next, e => do next.run call (← e.perform effect)
  | .talkLines first last next, e => match World.talkLines? e.scene.world first last with
    | none => .error ⟨.talkRange first last, e.scene.world⟩
    | some lines => (next lines).run call e
  | .random a b next, e =>
    let (value, state) := e.random.between a b
    (next value).run call { e with random := state }
  | .load paths next, e =>
    let (cache, found) := e.scene.cache.loadFirst paths
    (next (found.map Cached.script)).run call (e.withCache cache)

end Routine

end Cutscene
