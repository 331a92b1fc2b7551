import Cutscene.Engine.Execute
import Cutscene.Proofs.Result

/-! Planned actions in one step. A routine that follows a plan comes to what the plan's action does
at once, or to the plan's fault; so a command can be read off its plan, and what it does to the
engine off its action. -/

namespace Cutscene

variable {ω : Type} [World ω]

namespace Engine

/-- Where the chain goes after an action. -/
inductive Course where
  /-- To the next line. -/
  | next
  /-- From where it now stands. -/
  | moved
  /-- Into a script that was just started. -/
  | entered
  /-- Nowhere; it waits. -/
  | parked
  /-- It claims to wait, but waits for nothing. -/
  | stalled
  deriving DecidableEq, Repr

/-- How the course is told by the command. -/
def Course.flow : Course → Flow
  | .next => .proceed
  | .moved => .jump
  | .entered => .jump
  | .parked => .suspend
  | .stalled => .suspend

/-- What came of an action: the engine after it, and its course or its fault. -/
abbrev Acted (ω : Type) := Engine ω × Except Fault Course

def talk (e : Engine ω) (first last : Int32) : Except (Crash ω) (Acted ω) :=
  match World.talkLines? e.scene.world first last with
  | none => .error ⟨.talkRange first last, e.scene.world⟩
  | some [] => .ok (e, .error { cause := .talkEmpty first last })
  | some (line :: rest) => do
    let e ← e.perform (.dialog line.text line.portrait)
    return (← e.beginWait (.talk rest), .ok .parked)

def jump (e : Engine ω) (label : String) : Except (Crash ω) (Acted ω) :=
  let name := Label.normalize label
  match e.chain.script? with
  | none => .ok (e, .error { cause := .scriptMissing })
  | some script => match script.markerOf? name with
    | none => .ok (e, .error { cause := .labelMissing name script.file })
    | some i => do
      let e ← e.pass name
      return (e.withChain { e.chain with line := i + 1 }, .ok .moved)

/-- Only a script on top of another one counts as started by a call. -/
def call (e : Engine ω) (target : String) : Acted ω :=
  if e.options.maxDepth < e.chain.depth + 1 then
    (e, .error { cause := .depthExceeded e.options.maxDepth target })
  else
    let (cache, found) := e.scene.cache.loadFirst (e.candidates target)
    let e := e.withCache cache
    match found with
    | .error f => (e, .error f)
    | .ok entry => (e.withChain (e.chain.enter entry.script),
        .ok (if e.chain.script?.isSome then .entered else .moved))

def draw (e : Engine ω) (name : String) (a b : Int32) : Engine ω :=
  let (value, random) := e.random.between a b
  { e with random }.assign name value

@[simp] theorem draw_chain (e : Engine ω) (name : String) (a b : Int32) :
    (e.draw name a b).chain = e.chain := rfl

def act (e : Engine ω) : Action → Except (Crash ω) (Acted ω)
  | .proceed => .ok (e, .ok .next)
  | .perform effect none => do return (← e.perform effect, .ok .next)
  | .perform effect (some wait) => do
    let e ← e.perform effect
    return (← e.beginWait wait, .ok .parked)
  | .park wait => do return (← e.beginWait wait, .ok .parked)
  | .assign name value => .ok (e.assign name value, .ok .next)
  | .draw name a b => .ok (e.draw name a b, .ok .next)
  | .talk first last => e.talk first last
  | .jump label => e.jump label
  | .run target => .ok (e.call target)
  | .goBack => .ok (e.withChain e.chain.goBack, .ok .moved)
  | .stay => .ok (e, .ok .moved)
  | .stall => .ok (e, .ok (if e.chain.wait.isSome then .parked else .stalled))

/-- Reports a fault at the line of a call and goes on behind it. -/
def skipFaulty (e : Engine ω) (file : String) (call : Call) (f : Fault) : Engine ω :=
  (e.reportAt file call f).advance

/-- Follows the course of an action, taking over what was found in a script that was read. -/
def follow (e : Engine ω) (file : String) (call : Call) (course : Except Fault Course) : Engine ω :=
  let e := e.reportLines
  match course with
  | .error f => e.skipFaulty file call f
  | .ok .next => e.advance
  | .ok .moved => e
  | .ok .entered => e.announce
  | .ok .parked => e
  | .ok .stalled => e.skipFaulty file call { cause := .waitMissing call.name }

end Engine

namespace Routine

variable {call : Call} {e : Engine ω}

theorem run_read {α β : Type} (f : View → Except Fault α) (next : α → Routine β) :
    (read f >>= next).run call e = match f (e.view call) with
      | .error fault => .ok (e, .error fault)
      | .ok a => (next a).run call e := by
  have hlook : (read f >>= next).run call e = ((read f).bind next).run call e := rfl
  rw [hlook]
  simp only [read, bind, run]
  cases f (e.view call) <;> rfl

/-- A routine does nothing before the action that its plan comes to, and nothing at all where its
plan comes to a fault. -/
theorem Follows.run_eq {r : Routine Flow} {plan : Plan} (h : r.Follows plan) :
    r.run call e = match plan (e.view call) with
      | .error f => .ok (e, .error f)
      | .ok action => action.routine.run call e := by
  induction h with
  | act action => rfl
  | fail f => rfl
  | @read α f next plan rest ih =>
    rw [run_read]
    cases hf : f (e.view call) with
    | error fault => simp only [hf, error_bind]
    | ok a => simpa only [hf, ok_bind] using ih a

theorem run_suspend (wait : Wait) :
    (suspend wait).run call e = (e.beginWait wait).map fun e => (e, .ok .suspend) := by
  simp only [suspend, run]
  cases e.beginWait wait <;> rfl

theorem run_showLines (first last : Int32) :
    (showLines first last).run call e =
      (e.talk first last).map fun acted => (acted.1, acted.2.map Engine.Course.flow) := by
  simp only [showLines, run, Engine.talk]
  cases World.talkLines? e.scene.world first last with
  | none => rfl
  | some lines =>
    cases lines with
    | nil => rfl
    | cons line rest =>
      simp only [run, run_suspend]
      cases e.perform (.dialog line.text line.portrait) with
      | error crash => rfl
      | ok performed =>
        simp only [ok_bind]
        cases performed.beginWait (.talk rest) <;> rfl

theorem run_jumpTo (label : String) :
    (jumpTo label).run call e =
      (e.jump label).map fun acted => (acted.1, acted.2.map Engine.Course.flow) := by
  simp only [jumpTo, run, Engine.jump]
  cases e.chain.script? with
  | none => rfl
  | some script =>
    dsimp only
    cases script.markerOf? (Label.normalize label) with
    | none => rfl
    | some i =>
      simp only [Engine.pass]
      split <;> rfl

theorem run_callScript (target : String) :
    (callScript target).run call e =
      .ok ((e.call target).1, (e.call target).2.map Engine.Course.flow) := by
  simp only [callScript, run, Engine.call]
  split
  · rfl
  · simp only [run, Engine.view, Engine.candidates]
    cases e.scene.cache.loadFirst _ with
    | mk cache found =>
      cases found with
      | error f => rfl
      | ok entry =>
        cases h : e.chain.script?.isSome <;> simp [Except.map, run, Engine.Course.flow, h]

end Routine

/-- An action as a routine and in one step. -/
theorem Action.run_eq_act (call : Call) (e : Engine ω) (action : Action) :
    action.routine.run call e =
      (e.act action).map fun acted => (acted.1, acted.2.map Engine.Course.flow) := by
  cases action with
  | proceed => rfl
  | perform effect wait =>
    cases wait with
    | none =>
      simp only [routine, Routine.run, Engine.act]
      cases e.perform effect <;> rfl
    | some wait =>
      simp only [routine, Routine.run, Routine.run_suspend, Engine.act]
      cases e.perform effect with
      | error crash => rfl
      | ok performed =>
        simp only [ok_bind]
        cases performed.beginWait wait <;> rfl
  | park wait =>
    simp only [routine, Routine.run_suspend, Engine.act]
    cases e.beginWait wait <;> rfl
  | assign name value => rfl
  | draw name a b => rfl
  | talk first last => exact Routine.run_showLines first last
  | jump label => exact Routine.run_jumpTo label
  | run target => exact Routine.run_callScript target
  | goBack => rfl
  | stay => rfl
  | stall =>
    simp only [routine, Routine.run, Engine.act]
    split <;> rfl

namespace Handler

variable {handler : Handler} {call : Call} {e ran : Engine ω}

/-- The run of a handler, read off its plan. -/
theorem run_eq : handler.routine.run call e = match handler (e.view call) with
    | .error f => .ok (e, .error f)
    | .ok action =>
      (e.act action).map fun acted => (acted.1, acted.2.map Engine.Course.flow) := by
  rw [handler.follows.run_eq]
  cases handler (e.view call) with
  | error f => rfl
  | ok action => exact action.run_eq_act call e

/-- A run comes to the fault of the plan or to what the planned action does. -/
theorem run_cases {outcome : Except Fault Flow}
    (h : handler.routine.run call e = .ok (ran, outcome)) :
    (∃ f, handler (e.view call) = .error f ∧ ran = e ∧ outcome = .error f) ∨
    ∃ action course, handler (e.view call) = .ok action ∧ e.act action = .ok (ran, course) ∧
      outcome = course.map Engine.Course.flow := by
  rw [run_eq] at h
  cases hplan : handler (e.view call) with
  | error f =>
    rw [hplan] at h
    obtain ⟨rfl, rfl⟩ := Prod.mk.inj (Except.ok.inj h)
    exact Or.inl ⟨f, rfl, rfl, rfl⟩
  | ok action =>
    rw [hplan] at h
    obtain ⟨⟨acted, course⟩, hact, hran⟩ := map_eq_ok.mp h
    obtain ⟨rfl, rfl⟩ := Prod.mk.inj hran
    exact Or.inr ⟨action, course, rfl, hact, rfl⟩

end Handler

end Cutscene
