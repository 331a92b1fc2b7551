import Cutscene.Proofs.Hiding
import Cutscene.Proofs.Reachable

/-! Engines that nobody observes. To leave a trace costs a run nothing else: what it is answered and
what becomes of the engine is the same without. -/

namespace Cutscene.Engine

variable {ω : Type}

/-- The engine as it is without observation, and without what was traced. -/
def unobserved (e : Engine ω) : Engine ω :=
  { e with observed := false, scene := { e.scene with trace := #[] } }

/-- An answer of an engine that nobody observes. -/
def Answer.unobserved (answer : Answer ω) : Answer ω := (answer.1.unobserved, answer.2)

section Unobserved

variable (e : Engine ω)

@[simp] theorem unobserved_chain : e.unobserved.chain = e.chain := rfl

@[simp] theorem unobserved_options : e.unobserved.options = e.options := rfl

@[simp] theorem unobserved_world : e.unobserved.scene.world = e.scene.world := rfl

@[simp] theorem unobserved_cache : e.unobserved.scene.cache = e.scene.cache := rfl

@[simp] theorem unobserved_withChain (c : Chain) :
    (e.withChain c).unobserved = e.unobserved.withChain c := rfl

@[simp] theorem unobserved_withCache (cache : Cache) :
    (e.withCache cache).unobserved = e.unobserved.withCache cache := rfl

@[simp] theorem unobserved_report (f : Fault) :
    (e.report f).unobserved = e.unobserved.report f := rfl

@[simp] theorem unobserved_reportAt (file : String) (call : Call) (f : Fault) :
    (e.reportAt file call f).unobserved = e.unobserved.reportAt file call f := rfl

@[simp] theorem unobserved_advance : e.advance.unobserved = e.unobserved.advance := rfl

theorem observe_unobserved (event : Event) : e.unobserved.observe event = e.unobserved := rfl

theorem announce_unobserved : e.unobserved.announce = e.unobserved := by
  unfold announce
  split <;> rfl

@[simp] theorem unobserved_observe (event : Event) :
    (e.observe event).unobserved = e.unobserved := by
  obtain ⟨trace, h⟩ := observe_eq e event
  rw [h]
  rfl

@[simp] theorem unobserved_announce : e.announce.unobserved = e.unobserved := by
  obtain ⟨trace, h⟩ := announce_eq e
  rw [h]
  rfl

@[simp] theorem unobserved_reportLines : e.reportLines.unobserved = e.unobserved.reportLines := by
  rw [reportLines_eq, reportLines_eq]
  rfl

theorem unobserved_follow (file : String) (call : Call) (course : Except Fault Course) :
    (e.follow file call course).unobserved = e.unobserved.follow file call course := by
  have hlines := unobserved_reportLines e
  cases course with
  | error f => simp only [follow, skipFaulty, unobserved_advance, unobserved_reportAt, hlines]
  | ok course =>
    cases course with
    | next => simp only [follow, unobserved_advance, hlines]
    | moved => exact hlines
    | entered =>
      have hannounced : e.unobserved.reportLines.announce = e.unobserved.reportLines := by
        rw [← hlines, announce_unobserved]
      simp only [follow, unobserved_announce, hlines, hannounced]
    | parked => exact hlines
    | stalled => simp only [follow, skipFaulty, unobserved_advance, unobserved_reportAt, hlines]

theorem unobserved_yield (p : Position) (i : Instruction) :
    (e.yield p i).unobserved = e.unobserved.yield p i := by
  have hpending : e.unobserved.hasPending Cause.stepsCode = e.hasPending Cause.stepsCode := rfl
  unfold yield
  rw [hpending]
  split <;> rfl

end Unobserved

theorem hides_unobserved : Hides (unobserved (ω := ω)) where
  table _ := rfl
  maxDepth _ := rfl
  chain _ := rfl
  random _ := rfl
  world _ := rfl
  cache _ := rfl
  withChain _ _ := rfl
  withWorld _ _ := rfl
  withCache _ _ := rfl
  withRandom _ _ := rfl

variable [World ω]

theorem dispatch_unobserved (e : Engine ω) (file : String) (call : Call) :
    e.unobserved.dispatch file call = (e.dispatch file call).map unobserved := by
  have htable : e.unobserved.table = e.table := rfl
  rw [dispatch_eq, dispatch_eq, htable]
  cases e.table.resolve call with
  | error cause => rfl
  | ok command =>
    simp only [hides_unobserved.view]
    cases command.handler (e.view call) with
    | error f => simp only [ok_map, unobserved_follow]
    | ok action =>
      simp only [hides_unobserved.act]
      cases e.act action with
      | error crash => rfl
      | ok acted => simp only [ok_map, ok_bind, unobserved_follow]

theorem step_unobserved (e : Engine ω) (p : Position) (i : Instruction) :
    e.unobserved.step p i = (e.step p i).map unobserved := by
  cases i with
  | marker name literal line =>
    simp only [step, hides_unobserved.pass]
    cases e.pass name <;> rfl
  | call c =>
    simp only [step, observe_unobserved]
    rw [← unobserved_observe e (.reached p.script.file p.line), dispatch_unobserved]

theorem steps_unobserved (n : Nat) (e : Engine ω) :
    e.unobserved.steps n = (e.steps n).map unobserved := by
  induction n generalizing e with
  | zero =>
    simp only [steps, hides_unobserved.ready]
    cases e.ready with
    | mk e' next => cases next <;> simp [unobserved_yield]
  | succ n ih =>
    simp only [steps, hides_unobserved.ready]
    cases e.ready with
    | mk e' next =>
      cases next with
      | none => rfl
      | some next =>
        simp only [step_unobserved]
        cases e'.step next.1 next.2 with
        | error crash => rfl
        | ok e'' => exact ih e''

theorem execute_unobserved (e : Engine ω) :
    e.unobserved.execute = e.execute.map unobserved :=
  steps_unobserved _ _

omit [World ω] in
theorem succeed_unobserved (ran : Except (Crash ω) (Engine ω)) :
    succeed (ran.map unobserved) = (succeed ran).map Answer.unobserved := by
  cases ran <;> rfl

theorem start_unobserved (e : Engine ω) (script : Script) (owner : Option Owner) :
    e.unobserved.start script owner = (e.start script owner).map Answer.unobserved := by
  have hdepth : e.unobserved.nextDepth = e.nextDepth := rfl
  have hruns : ∀ c, (e.unobserved.withChain c).announce.execute =
      (e.withChain c).announce.execute.map unobserved := by
    intro c
    rw [← unobserved_withChain, announce_unobserved, ← unobserved_announce, execute_unobserved]
  unfold start
  rw [unobserved_options, hdepth]
  split
  · rfl
  · simp only [hruns, unobserved_chain, succeed_unobserved]

theorem goOn_unobserved (e : Engine ω) : e.unobserved.goOn = e.goOn.map unobserved := by
  simp only [goOn, unobserved_chain, ← unobserved_withChain, execute_unobserved]

theorem runScript_unobserved (e : Engine ω) (path : String) (owner : Option Owner) :
    e.unobserved.runScript path owner = (e.runScript path owner).map Answer.unobserved := by
  unfold runScript
  rw [unobserved_cache, hides_unobserved.candidates]
  generalize e.scene.cache.loadFirst (e.candidates path) = loaded
  obtain ⟨cache, found⟩ := loaded
  cases found with
  | ok entry =>
    simp only [← unobserved_withCache, ← unobserved_reportLines, start_unobserved]
  | error f =>
    simp only [← unobserved_withCache, ← unobserved_reportLines, failStart, unobserved_chain]
    split <;> rfl

theorem runContent_unobserved (e : Engine ω) (file source : String) (owner : Option Owner) :
    e.unobserved.runContent file source owner =
      (e.runContent file source owner).map Answer.unobserved := by
  have hlines : ∀ faults : List Fault,
      faults.foldl report e.unobserved = (faults.foldl report e).unobserved := by
    intro faults
    rw [foldl_report, foldl_report]
    rfl
  simp only [runContent, hlines, start_unobserved]

theorem closeDialog_unobserved (e : Engine ω) :
    e.unobserved.closeDialog = e.closeDialog.map Answer.unobserved := by
  unfold closeDialog
  rw [unobserved_chain]
  split
  · next line rest hwait =>
    simp only [hides_unobserved.perform]
    cases e.perform (.dialog line.text line.portrait) <;> rfl
  · rw [goOn_unobserved, succeed_unobserved]
  · rw [goOn_unobserved, succeed_unobserved]
  · rfl

theorem select_unobserved (e : Engine ω) (index : Int32) :
    e.unobserved.select index = (e.select index).map Answer.unobserved := by
  unfold select
  rw [unobserved_chain]
  split
  · rw [hides_unobserved.assign, goOn_unobserved, succeed_unobserved]
  · rfl

theorem update_unobserved (e : Engine ω) (elapsed : Int) :
    e.unobserved.update elapsed = (e.update elapsed).map unobserved := by
  unfold update
  rw [unobserved_chain, unobserved_world]
  split
  · rfl
  · cases e.chain.wait with
    | none => exact execute_unobserved e
    | some wait =>
      dsimp only
      cases wait.poll e.scene.world elapsed with
      | error crash => rfl
      | ok polled =>
        obtain ⟨wait', ended⟩ := polled
        simp only [ok_bind, hides_unobserved.park]
        cases ended with
        | true => exact goOn_unobserved _
        | false => rfl

/-- Every request is answered alike, whether someone observes the engine or not. -/
theorem answer_unobserved (e : Engine ω) (r : Request ω) :
    (e.unobserved.answer r).map Answer.unobserved = (e.answer r).map Answer.unobserved := by
  have hagain : ∀ answered : Except (Crash ω) (Answer ω),
      (answered.map Answer.unobserved).map Answer.unobserved = answered.map Answer.unobserved := by
    intro answered
    cases answered <;> rfl
  cases r with
  | run path owner => simp only [answer, runScript_unobserved, hagain]
  | runContent file source owner => simp only [answer, runContent_unobserved, hagain]
  | execute => simp only [answer, execute_unobserved, succeed_unobserved, hagain]
  | update elapsed => simp only [answer, update_unobserved, succeed_unobserved, hagain]
  | closeDialog => simp only [answer, closeDialog_unobserved, hagain]
  | select index => simp only [answer, select_unobserved, hagain]
  | pause =>
    have hpaused : e.unobserved.pause = e.pause.unobserved := by
      unfold pause
      rw [unobserved_chain]
      split <;> rfl
    simp only [answer, hpaused]
    rfl
  | _ => rfl

/-- The answers that requests get, one after the other, up to a crash. -/
def answers : List (Request ω) → Engine ω → List (Except (Crash ω) (Answer ω))
  | [], _ => []
  | r :: rs, e => match e.answer r with
    | .error crash => [.error crash]
    | .ok answer => .ok answer :: answers rs answer.1

/-- So is every request of a run, for engines that differ in what was observed and nothing else. -/
theorem answers_unobserved (rs : List (Request ω)) {e e' : Engine ω}
    (h : e'.unobserved = e.unobserved) :
    (answers rs e').map (·.map Answer.unobserved) =
      (answers rs e).map (·.map Answer.unobserved) := by
  induction rs generalizing e e' with
  | nil => rfl
  | cons r rs ih =>
    have hfirst : (e'.answer r).map Answer.unobserved = (e.answer r).map Answer.unobserved := by
      rw [← answer_unobserved e', h, answer_unobserved]
    simp only [answers]
    generalize e.answer r = answered at hfirst
    generalize e'.answer r = answered' at hfirst
    cases answered with
    | error crash =>
      cases answered' with
      | error crash' => simpa using hfirst
      | ok answer' => cases hfirst
    | ok answer =>
      cases answered' with
      | error crash' => cases hfirst
      | ok answer' =>
        have hsame : answer'.unobserved = answer.unobserved := Except.ok.inj hfirst
        simp only [List.map_cons, ok_map, hsame, ih (congrArg Prod.fst hsame)]

end Cutscene.Engine
