import Cutscene.Command.Standard
import Cutscene.Proofs.Deeds
import Cutscene.Proofs.Stride

/-! Calls that fail. A call fails because of its name, its parameters or what its command runs into,
and whichever it is, the engine notes the fault and stands behind the call; all else is as it was. A
call that succeeds asks the world for one thing at most. -/

namespace Cutscene

variable {ω : Type} [World ω]

/-- Whether a request leaves the world to the chain. -/
def Request.keepsWorld : Request ω → Bool
  | .setWorld _ => false
  | _ => true

/-- What a world may have become of another one by a single request. -/
inductive AskedOnce (world : ω) : ω → Prop where
  | never : AskedOnce world world
  | effect {effect : Effect} {world' : ω} (performed : World.perform world effect = .ok world') :
      AskedOnce world world'
  | variable (name : String) (value : Int32) : AskedOnce world (World.setVariable world name value)

namespace Engine

/-- The engine at the instruction it is about to dispatch: its arrival there is traced. -/
def arrived (e : Engine ω) (p : Position) : Engine ω := e.observe (.reached p.script.file p.line)

/-- An engine with one more fault and one line further; the cache may have asked its loader. -/
def skipped (e : Engine ω) (f : Fault) (reads : Array String) : Engine ω :=
  { e with
    chain := e.chain.advance
    diagnostics := e.diagnostics.push f
    scene := { e.scene with cache := { e.scene.cache with reads } } }

/-- A call fails if its command is unknown or does not take so many parameters, if the routine of
the command comes to a fault, or if it claims to wait and waits for nothing. -/
inductive Fails (e : Engine ω) (call : Call) : Fault → Prop where
  | unresolved {cause : Cause} (unknown : e.table.resolve call = .error cause) :
      Fails e call { cause }
  | failed {command : Command} {ran : Engine ω} {f : Fault}
      (resolves : e.table.resolve call = .ok command)
      (fails : command.handler.routine.run call e = .ok (ran, .error f)) : Fails e call f
  | stalled {command : Command} {ran : Engine ω} (resolves : e.table.resolve call = .ok command)
      (stalls : command.handler.routine.run call e = .ok (ran, .ok .suspend))
      (idle : ran.chain.wait = none) : Fails e call { cause := .waitMissing call.name }

/-- All that is done for a call while its command is run. -/
def deeds (e : Engine ω) (call : Call) : List Deed :=
  match e.table.resolve call with
  | .error _ => []
  | .ok command => command.handler.routine.deeds call e

variable {e e' : Engine ω} {call : Call} {f : Fault} {file : String}

omit [World ω] in
theorem skipFaulty_eq (e : Engine ω) (file : String) (call : Call) (f : Fault) :
    e.skipFaulty file call f = e.skipped (f.located file call.line) e.scene.cache.reads := rfl

theorem Acts.of_error {action : Action} (h : e.Acts action e' (.error f)) :
    ∃ reads, e' = e.withCache { e.scene.cache with reads } := by
  cases h with
  | talkEmpty lines => exact ⟨e.scene.cache.reads, rfl⟩
  | jumpNowhere => exact ⟨e.scene.cache.reads, rfl⟩
  | jumpLost lost => exact ⟨e.scene.cache.reads, rfl⟩
  | @runNothing target reads f missing => exact ⟨reads, rfl⟩
  | runTooDeep full => exact ⟨e.scene.cache.reads, rfl⟩

theorem Acts.of_stalled {action : Action} (h : e.Acts action e' (.ok .stalled)) :
    e' = e ∧ action = .stall := by
  cases h
  exact ⟨rfl, rfl⟩

theorem Fails.of_refused {command : Command} (hresolves : e.table.resolve call = .ok command)
    (hrefuses : command.handler (e.view call) = .error f) : e.Fails call f := by
  have hrun : command.handler.routine.run call e = .ok (e, .error f) := by
    rw [Handler.run_eq, hrefuses]
  exact .failed hresolves hrun

theorem Fails.of_acted {action : Action} (hasks : e.Asks call action)
    (hfails : e.act action = .ok (e', .error f)) : e.Fails call f := by
  obtain ⟨command, hresolves, hasks⟩ := hasks
  have hrun : command.handler.routine.run call e = .ok (e', .error f) := by
    simp only [Handler.run_eq, hasks, hfails]
    rfl
  exact .failed hresolves hrun

/-- An action that suspends a chain which waits for nothing has claimed a wait. -/
theorem stalled_of_suspends {action : Action} {course : Except Fault Course}
    (hacts : e.Acts action e' course) (hsuspends : course.map Course.flow = .ok .suspend)
    (hidle : e'.chain.wait = none) : action = .stall ∧ course = .ok .stalled := by
  obtain ⟨course, rfl, hflow⟩ := map_eq_ok.mp hsuspends
  have hparked : course ≠ .parked := fun hparked => by
    have hwaits := (hacts.waits hflow).mpr hparked
    rw [hidle] at hwaits
    cases hwaits
  obtain rfl : course = .stalled := by
    cases course with
    | stalled => rfl
    | parked => exact absurd rfl hparked
    | _ => cases hflow
  exact ⟨hacts.of_stalled.2, rfl⟩

/-- Why a call fails, read off the plan of its command. -/
theorem Fails.planned (h : e.Fails call f) :
    (∃ cause, e.table.resolve call = .error cause ∧ f = { cause }) ∨
    (∃ command, e.table.resolve call = .ok command ∧
      command.handler (e.view call) = .error f) ∨
    (∃ action ran, e.Asks call action ∧ e.act action = .ok (ran, .error f)) ∨
    (∃ ran, e.Asks call .stall ∧ e.act .stall = .ok (ran, .ok .stalled) ∧
      f = { cause := .waitMissing call.name }) := by
  cases h with
  | unresolved unknown => exact Or.inl ⟨_, unknown, rfl⟩
  | @failed command ran f resolves fails =>
    refine Or.inr ?_
    rcases Handler.run_cases fails with ⟨f', hplan, -, hfault⟩ | ⟨action, course, hplan, hact, hfault⟩
    · obtain rfl := Except.error.inj hfault
      exact Or.inl ⟨command, resolves, hplan⟩
    · cases course with
      | error f' =>
        obtain rfl := Except.error.inj hfault
        exact Or.inr (Or.inl ⟨action, ran, ⟨command, resolves, hplan⟩, hact⟩)
      | ok course => cases hfault
  | @stalled command ran resolves stalls idle =>
    refine Or.inr (Or.inr (Or.inr ?_))
    rcases Handler.run_cases stalls with ⟨f', -, -, hfault⟩ | ⟨action, course, hplan, hact, hflow⟩
    · cases hfault
    · obtain ⟨rfl, rfl⟩ := stalled_of_suspends (acts_of_act hact) hflow.symm idle
      exact ⟨ran, ⟨command, resolves, hplan⟩, hact, rfl⟩

theorem dispatch_of_asks {action : Action} (h : e.Asks call action) :
    e.dispatch file call =
      e.act action >>= fun acted => .ok (acted.1.follow file call acted.2) := by
  obtain ⟨command, hresolves, hasks⟩ := h
  simp only [dispatch_eq, hresolves, hasks]

theorem step_of_act {p : Position} {action : Action} {course : Except Fault Course}
    (hasks : e.Asks call action) (hact : (e.arrived p).act action = .ok (e', course)) :
    e.step p (.call call) = .ok (e'.follow p.script.file call course) := by
  have hasked : (e.arrived p).Asks call action := asks_observe.mpr hasks
  change (e.arrived p).dispatch p.script.file call = _
  rw [dispatch_of_asks hasked, hact, ok_bind]

theorem dispatch_of_fails (htaken : e.scene.cache.faults = []) (h : e.Fails call f) :
    ∃ reads, e.dispatch file call = .ok (e.skipped (f.located file call.line) reads) := by
  rcases h.planned with ⟨cause, unknown, rfl⟩ | ⟨command, resolves, refuses⟩ |
    ⟨action, ran, asks, fails⟩ | ⟨ran, asks, stalls, rfl⟩
  · exact ⟨e.scene.cache.reads, by simp only [dispatch_eq, unknown, skipFaulty_eq]⟩
  · refine ⟨e.scene.cache.reads, ?_⟩
    simp only [dispatch_eq, resolves, refuses, follow, reportLines_of_taken e htaken,
      skipFaulty_eq]
  · obtain ⟨reads, rfl⟩ := (acts_of_act fails).of_error
    have hlines : (e.withCache { e.scene.cache with reads }).reportLines = _ :=
      reportLines_of_taken _ htaken
    refine ⟨reads, ?_⟩
    simp only [dispatch_of_asks asks, fails, ok_bind, follow, hlines]
    rfl
  · obtain ⟨rfl, -⟩ := (acts_of_act stalls).of_stalled
    refine ⟨ran.scene.cache.reads, ?_⟩
    simp only [dispatch_of_asks asks, stalls, ok_bind, follow, reportLines_of_taken ran htaken]
    rfl

theorem deeds_of_asks {action : Action} (h : e.Asks call action) :
    e.deeds call = action.routine.deeds call e := by
  obtain ⟨command, hresolves, hasks⟩ := h
  simp only [deeds, hresolves, command.handler.follows.deeds_eq, hasks]

theorem modest_deeds (e : Engine ω) (call : Call) : Modest e.chain.wait (e.deeds call) := by
  unfold deeds
  split
  · exact .idle
  · next command _ => exact command.handler.modest

/-- A call that fails has done nothing on the way to its fault. -/
theorem Fails.deeds_eq (h : e.Fails call f) : e.deeds call = [] := by
  rcases h.planned with ⟨cause, unknown, rfl⟩ | ⟨command, resolves, refuses⟩ |
    ⟨action, ran, asks, fails⟩ | ⟨ran, asks, stalls, rfl⟩
  · simp only [deeds, unknown]
  · simp only [deeds, resolves, command.handler.follows.deeds_eq, refuses]
  · rw [deeds_of_asks asks]
    exact (acts_of_act fails).deeds_of_error
  · exact deeds_of_asks asks

omit [World ω] in
theorem heed_world (e : Engine ω) (file : String) (call : Call) (flow : Flow) :
    (e.heed file call flow).scene.world = e.scene.world := by
  cases flow with
  | proceed => rfl
  | jump => rfl
  | suspend =>
    simp only [heed]
    split <;> rfl

/-- The world after a call is what was done for the call makes of the world before it. -/
theorem world_of_dispatch (h : e.dispatch file call = .ok e') :
    (e.deeds call).foldlM World.undergo e.scene.world = .ok e'.scene.world := by
  obtain ⟨⟨attempted, flow⟩, hattempt, h⟩ := bind_eq_ok.mp h
  obtain rfl := Except.ok.inj h
  rw [heed_world]
  unfold attempt at hattempt
  unfold deeds
  cases hresolve : e.table.resolve call with
  | error cause =>
    simp only [hresolve] at hattempt
    obtain ⟨rfl, -⟩ := Prod.mk.inj (Except.ok.inj hattempt)
    rfl
  | ok command =>
    simp only [hresolve] at hattempt
    obtain ⟨⟨ran, outcome⟩, hrun, hattempt⟩ := bind_eq_ok.mp hattempt
    rw [Routine.world_run hrun]
    cases outcome with
    | error f =>
      obtain ⟨rfl, -⟩ := Prod.mk.inj (Except.ok.inj hattempt)
      simp
    | ok flow' =>
      obtain ⟨rfl, -⟩ := Prod.mk.inj (Except.ok.inj hattempt)
      dsimp only
      split <;> simp

theorem Acts.askedOnce {action : Action} {course : Except Fault Course}
    (h : e.Acts action e' course) : AskedOnce e.scene.world e'.scene.world := by
  cases h with
  | perform performed => exact .effect performed
  | performAndPark performed => exact .effect performed
  | talk lines performed => exact .effect performed
  | assign => exact .variable _ _
  | draw => exact .variable _ _
  | _ => exact .never

omit [World ω] in
theorem follow_world (e : Engine ω) (file : String) (call : Call) (course : Except Fault Course) :
    (e.follow file call course).scene.world = e.scene.world := by
  cases course with
  | error f => simp [follow, skipFaulty, advance]
  | ok course => cases course <;> simp [follow, skipFaulty, advance]

theorem Dispatched.askedOnce (h : e.Dispatched file call e') :
    AskedOnce e.scene.world e'.scene.world := by
  cases h with
  | unresolved unknown => exact .never
  | refused resolves refuses =>
    rw [follow_world]
    exact .never
  | acted asks acts =>
    rw [follow_world]
    exact acts.askedOnce

/-- A request itself shows at most one dialog or gives at most one variable a value. -/
theorem Opened.tells {r : Request ω} {o : Opening ω} (h : e.Opened r o)
    (hworld : r.keepsWorld = true) :
    o.phase.engine.scene.world = e.scene.world ∨
      (∃ text portrait, World.perform e.scene.world (.dialog text portrait) =
        .ok o.phase.engine.scene.world) ∨
      ∃ name value, o.phase.engine.scene.world = World.setVariable e.scene.world name value := by
  have hstarts : ∀ (e' : Engine ω) (script : Script) (owner : Option Owner),
      e'.scene.world = e.scene.world →
        (e'.starts script owner).phase.engine.scene.world = e.scene.world := by
    intro e' script owner hsame
    unfold starts
    split
    · exact hsame
    · simp [Phase.begun, Phase.engine, hsame]
  cases h with
  | run found => exact Or.inl (hstarts _ _ _ (by simp))
  | runNothing missing inside => exact Or.inl (by simp [refusesAloud, refuses, Phase.engine])
  | runNothingIdle missing outside => exact Or.inl (by simp [refusesAloud, refuses, Phase.engine])
  | runContent parses => exact Or.inl (hstarts _ _ _ (by rw [foldl_report]))
  | nextLine waits performed => exact Or.inr (Or.inl ⟨_, _, performed⟩)
  | select waits => exact Or.inr (Or.inr ⟨_, _, rfl⟩)
  | setWorld => cases hworld
  | _ => exact Or.inl rfl

theorem Opened.askedOnce {r : Request ω} {o : Opening ω} (h : e.Opened r o)
    (hworld : r.keepsWorld = true) :
    AskedOnce e.scene.world o.phase.engine.scene.world := by
  rcases h.tells hworld with hsame | ⟨text, portrait, hshown⟩ | ⟨name, value, hset⟩
  · exact hsame ▸ .never
  · exact .effect hshown
  · exact hset ▸ .variable name value

end Engine

open Engine

theorem Round.askedOnce {s t : Phase ω} (h : Round s t) :
    AskedOnce s.engine.scene.world t.engine.scene.world := by
  cases h with
  | halt held => exact .never
  | leave free runs ended leaves => exact .never
  | finish free ended alone => exact .never
  | yield free stands next => simpa [Phase.engine] using .never
  | @step left e e' p i free stands next ran =>
    cases i with
    | marker name literal line =>
      obtain ⟨-, rfl⟩ := step_marker_eq_ok.mp ran
      exact .never
    | call call => simpa [Phase.engine] using (dispatched_of_dispatch ran).askedOnce

/-- A call of a standard command that fails in a run is noted and skipped; nothing was done for it,
and all else is as it was. Whatever a call comes to, the world has become what was done for the call
makes of it, and it was asked for one thing at most. -/
theorem call_fails_atomically {options : Options} {e : Engine ω} {left : Nat}
    (h : Reachable .standard options (.running left e)) (p : Position) (call : Call) :
    (∀ f, (e.arrived p).Fails call f → (e.arrived p).deeds call = [] ∧ ∃ reads,
      e.step p (.call call) =
        .ok ((e.arrived p).skipped (f.located p.script.file call.line) reads)) ∧
    ∀ e', e.step p (.call call) = .ok e' →
      ((e.arrived p).deeds call).countP Deed.asksWorld ≤ 1 ∧
      ((e.arrived p).deeds call).foldlM World.undergo e.scene.world = .ok e'.scene.world := by
  constructor
  · intro f hfails
    obtain ⟨-, -, htaken⟩ := h.frame
    have htaken : (e.arrived p).scene.cache.faults = [] := by
      rw [arrived, observe_cache]
      exact htaken
    exact ⟨hfails.deeds_eq, dispatch_of_fails htaken hfails⟩
  · intro e' hstep
    have hworld := world_of_dispatch hstep
    rw [observe_world] at hworld
    exact ⟨(modest_deeds _ call).asks_le, hworld⟩

namespace Rehearsal

def muddled : Script := (Script.parse "muddled" "Dance(5);").script

def dance : Call := ⟨"Dance", ["5"], "", "Dance(5);", 1⟩

theorem unknown_call_skipped : ∃ (e : Engine Recording) (reads : Array String),
    Reachable .standard {} (.running 10000 e) ∧
    (e.chain.position = some ⟨muddled, 0⟩ ∧ e.chain.instruction? = some (.call dance)) ∧
    (e.arrived ⟨muddled, 0⟩).Fails dance { cause := .commandUnknown "Dance" } ∧
    e.step ⟨muddled, 0⟩ (.call dance) = .ok ((e.arrived ⟨muddled, 0⟩).skipped
      { cause := .commandUnknown "Dance", location := some ⟨"muddled", 1⟩ } reads) := by
  obtain ⟨o, hopen, hglance⟩ := exists_ok
    (r := (fresh .standard {} scene).opening (.runContent "muddled" "Dance(5);" none))
    (f := fun o => glance o.phase) (b := ⟨some ⟨muddled, 0⟩, [], false, some 10000⟩)
    (by decide +kernel)
  obtain ⟨e, hphase, hp, -, -⟩ := running_of_glance hglance
  have hreach : Reachable .standard {} (.running 10000 e) := by
    rw [← hphase]
    exact ⟨scene, rfl, .single ⟨_, .request hopen⟩⟩
  have hunknown : CommandTable.standard.find? "Dance" = none :=
    Option.isNone_iff_eq_none.mp (by decide +kernel)
  have hfails : (e.arrived ⟨muddled, 0⟩).Fails dance { cause := .commandUnknown "Dance" } := by
    refine .unresolved ?_
    have htable : (e.arrived ⟨muddled, 0⟩).table = .standard := by
      rw [arrived, observe_toRunner]
      exact hreach.frame.1
    rw [htable]
    simp [CommandTable.resolve, dance, hunknown]
  obtain ⟨-, reads, hstep⟩ := (call_fails_atomically hreach ⟨muddled, 0⟩ dance).1 _ hfails
  have hnext : Position.instruction? ⟨muddled, 0⟩ = some (.call dance) := by decide +kernel
  exact ⟨e, reads, hreach, ⟨hp, by simpa [Chain.instruction?, hp] using hnext⟩, hfails, hstep⟩

end Rehearsal

end Cutscene
