import Cutscene.Proofs.Duration
import Cutscene.Proofs.Failure
import Cutscene.Proofs.FaultyLines
import Cutscene.Proofs.Replying
import Cutscene.Proofs.Steering

/-! Waits that are begun. A standard command begins one wait at most, and only where none is pending:
a chain that waits runs no call. It suspends the chain exactly if it begins a wait, so no chain ever
claims to wait without waiting for something. -/

namespace Cutscene

/-- How the run of a routine goes with waits. It begins one at most, with none pending, and asks the
chain to be suspended just if it begins one, which is what the chain then waits for. It breaks down
under the world or a count, and never under a wait on top of another one. -/
structure Routine.BeginsProperly {ω : Type} [World ω] (call : Call) (r : Routine Flow)
    (e : Engine ω) : Prop where
  once : (r.beginnings call e).length ≤ 1
  free : ∀ b ∈ r.beginnings call e, b.pending = none
  suspends : ∀ ran outcome, r.run call e = .ok (ran, outcome) →
    (outcome = .ok .suspend ↔ r.beginnings call e ≠ [])
  waits : ∀ ran outcome, r.run call e = .ok (ran, outcome) →
    ran.chain.wait = (r.beginnings call e).head?.map Beginning.wait
  breaks : ∀ crash, r.run call e = .error crash → Overtaxes e crash

namespace Engine

variable {ω : Type} [World ω] {e e' : Engine ω} {call : Call} {action : Action}

theorem wait_goBack (c : Chain) : c.goBack.wait = c.wait := by
  unfold Chain.goBack
  cases hleave : c.leave? with
  | none => rfl
  | some c' =>
    obtain ⟨caller, callers, -, rfl⟩ := Chain.leave?_eq_some.mp hleave
    rfl

/-- On a chain that waits for nothing an action suspends the chain and begins the wait that is left
pending, or it does neither. -/
theorem Acts.begins {course : Except Fault Course} (h : e.Acts action e' course)
    (hfree : e.chain.wait = none) (hplain : action ≠ .stall) (call : Call) :
    (course.map Course.flow = .ok .suspend ∧
      ∃ wait, action.routine.beginnings call e = [⟨none, wait⟩] ∧ e'.chain.wait = some wait) ∨
    (course.map Course.flow ≠ .ok .suspend ∧ action.routine.beginnings call e = [] ∧
      e'.chain.wait = none) := by
  have hshown : ∀ {effect : Effect} {world : ω} (wait : Wait),
      World.perform e.scene.world effect = .ok world →
      (Routine.perform effect (.suspend wait)).beginnings call e = [⟨none, wait⟩] := by
    intro effect world wait performed
    have hperform : e.perform effect = .ok (e.withWorld world) :=
      perform_eq_ok.mpr ⟨world, performed, rfl⟩
    simp only [Routine.beginnings, Routine.deeds, hperform, Routine.deeds_suspend, withWorld_toRunner,
      hfree]
    rfl
  have hidle : action.routine.deeds call e = [] → action.routine.beginnings call e = [] := by
    intro hnone
    rw [Routine.beginnings, hnone, List.filterMap_nil]
  cases h with
  | performAndPark performed free => exact Or.inl ⟨rfl, _, hshown _ performed, rfl⟩
  | @park wait free =>
    refine Or.inl ⟨rfl, wait, ?_, rfl⟩
    simp only [Routine.beginnings, Action.routine, Routine.deeds_suspend, free]
    rfl
  | @talk first last line rest world lines performed free =>
    refine Or.inl ⟨rfl, .talk rest, ?_, rfl⟩
    rw [← hshown (.talk rest) performed]
    simp only [Routine.beginnings, Action.routine, Routine.showLines, Routine.deeds, lines]
  | @perform effect world performed =>
    have hperform : e.perform effect = .ok (e.withWorld world) :=
      perform_eq_ok.mpr ⟨world, performed, rfl⟩
    refine Or.inr ⟨by rintro ⟨⟩, ?_, hfree⟩
    simp only [Routine.beginnings, Action.routine, Routine.deeds, hperform]
    rfl
  | talkEmpty lines =>
    refine Or.inr ⟨by rintro ⟨⟩, hidle ?_, hfree⟩
    simp only [Action.routine, Routine.showLines, Routine.deeds, lines]
  | jump stands marked counts => exact Or.inr ⟨by rintro ⟨⟩, hidle (Routine.deeds_jumpTo _), hfree⟩
  | jumpNowhere => exact Or.inr ⟨by rintro ⟨⟩, hidle (Routine.deeds_jumpTo _), hfree⟩
  | jumpLost lost => exact Or.inr ⟨by rintro ⟨⟩, hidle (Routine.deeds_jumpTo _), hfree⟩
  | run room found inside => exact Or.inr ⟨by rintro ⟨⟩, hidle (Routine.deeds_callScript _), rfl⟩
  | runFirst room found lost => exact Or.inr ⟨by rintro ⟨⟩, hidle (Routine.deeds_callScript _), rfl⟩
  | runNothing missing => exact Or.inr ⟨by rintro ⟨⟩, hidle (Routine.deeds_callScript _), hfree⟩
  | runTooDeep full => exact Or.inr ⟨by rintro ⟨⟩, hidle (Routine.deeds_callScript _), hfree⟩
  | goBack => exact Or.inr ⟨by rintro ⟨⟩, rfl, (wait_goBack e.chain).trans hfree⟩
  | stall free => exact absurd rfl hplain
  | stallWaiting waits => exact absurd rfl hplain
  | _ => exact Or.inr ⟨by rintro ⟨⟩, rfl, hfree⟩

/-- No standard command asks to claim a wait. -/
theorem plain_of_asks (htable : e.table = .standard) (h : e.Asks call action) :
    action ≠ .stall := by
  obtain ⟨command, hresolve, hasks⟩ := h
  rw [htable] at hresolve
  have hreplies := CommandTable.standard_replies (v := e.view call) hresolve
  rwa [hasks] at hreplies

theorem genuine_of_acts {course : Except Fault Course} (h : e.Acts action e' course)
    (hplain : action ≠ .stall) : course ≠ .ok .stalled := by
  cases h with
  | stall free => exact absurd rfl hplain
  | _ => simp

/-- The command of a call goes properly with waits where nothing is waited for. -/
theorem beginsProperly_of_resolves {command : Command} (htable : e.table = .standard)
    (hfree : e.chain.wait = none) (hresolves : e.table.resolve call = .ok command) :
    command.handler.routine.BeginsProperly call e := by
  have hmodest : Modest e.chain.wait (command.handler.routine.deeds call e) := command.handler.modest
  have hran : ∀ ran outcome, command.handler.routine.run call e = .ok (ran, outcome) →
      (outcome = .ok .suspend ↔ command.handler.routine.beginnings call e ≠ []) ∧
      ran.chain.wait = (command.handler.routine.beginnings call e).head?.map Beginning.wait := by
    intro ran outcome hrun
    rw [Routine.beginnings, command.handler.follows.deeds_eq]
    rcases Handler.run_cases hrun with ⟨f, hasks, rfl, rfl⟩ | ⟨action, course, hasks, hact, rfl⟩
    · rw [hasks]
      exact ⟨by simp, hfree⟩
    · have hplain := plain_of_asks htable ⟨command, hresolves, hasks⟩
      rw [hasks]
      change (_ ↔ action.routine.beginnings call e ≠ []) ∧
        _ = (action.routine.beginnings call e).head?.map Beginning.wait
      rcases (acts_of_act hact).begins hfree hplain call with
        ⟨hsuspends, wait, hbegun, hwait⟩ | ⟨hgoes, hbegun, hwait⟩
      · rw [hbegun]
        exact ⟨iff_of_true hsuspends (List.cons_ne_nil _ _), hwait⟩
      · rw [hbegun]
        exact ⟨iff_of_false hgoes (by simp), hwait⟩
  refine ⟨hmodest.begins_le, fun b hb => (hmodest.pending_of_begins hb).trans hfree,
    fun ran outcome hrun => (hran ran outcome hrun).1,
    fun ran outcome hrun => (hran ran outcome hrun).2, fun crash hcrash => ?_⟩
  rw [Handler.run_eq] at hcrash
  cases hasks : command.handler (e.view call) with
  | error f =>
    rw [hasks] at hcrash
    cases hcrash
  | ok action =>
    rw [hasks] at hcrash
    cases hact : e.act action with
    | error crash' =>
      simp only [hact] at hcrash
      obtain rfl := Except.error.inj hcrash
      exact overtaxes_of_act hfree hact
    | ok acted =>
      simp only [hact] at hcrash
      cases hcrash

end Engine

namespace Cause

/-- Whether it is told of a chain that claims to wait but waits for nothing. -/
def isHollow : Cause → Bool
  | .waitMissing _ => true
  | .stated code _ => code = "ENGINE_SUSPEND_WITHOUT_WAIT"
  | _ => false

theorem isHollow_eq (c : Cause) : c.isHollow = decide (c.code = "ENGINE_SUSPEND_WITHOUT_WAIT") := by
  cases c with
  | stated code message => rfl
  | _ => simp [isHollow, code, stepsCode, notFoundCode]

theorem isHollow_of_isOfCall {c : Cause} (h : c.isOfCall = true) : c.isHollow = false := by
  cases c with
  | waitMissing command => cases h
  | stated code message => cases h
  | _ => rfl

theorem isHollow_of_isOfLine {c : Cause} (h : c.isOfLine = true) : c.isHollow = false := by
  cases c with
  | waitMissing command => cases h
  | stated code message => cases h
  | _ => rfl

end Cause

theorem Script.isHollow_of_mem_parse {file source : String} {f : Fault}
    (h : f ∈ (parse file source).faults) : f.cause.isHollow = false := by
  rw [parse_faults] at h
  exact Cause.isHollow_of_isOfLine (isOfLine_of_mem h)

/-- A result whose fault, if it has one, does not tell of an empty wait. -/
def Candid {α : Type} (r : Except Fault α) : Prop :=
  ∀ f, r = .error f → f.cause.isHollow = false

@[simp] theorem candid_ok {α : Type} (a : α) : Candid (.ok a) := by
  intro f h
  cases h

@[simp] theorem candid_error {α : Type} {f : Fault} :
    Candid (.error f : Except Fault α) ↔ f.cause.isHollow = false := by
  simp [Candid]

namespace Cache

/-- A loader that tells of no empty wait. -/
def Earnest (c : Cache) : Prop := ∀ path, Candid (c.read path)

/-- Neither the loader of a cache nor a line it has read is told of as an empty wait. -/
structure Unspoiled (c : Cache) : Prop where
  loader : c.Earnest
  kept : ∀ f ∈ c.faults, f.cause.isHollow = false

variable {c : Cache}

theorem Unspoiled.load (h : c.Unspoiled) (path : String) :
    (c.load path).1.Unspoiled ∧ Candid (c.load path).2 := by
  unfold Cache.load
  dsimp only
  split
  · exact ⟨h, candid_ok _⟩
  · split
    · next f hrefused =>
      exact ⟨⟨h.loader, h.kept⟩, candid_error.mpr (h.loader _ _ hrefused)⟩
    · next source hread =>
      refine ⟨⟨h.loader, fun f hf => ?_⟩, candid_ok _⟩
      rcases List.mem_append.mp hf with hf | hf
      · exact h.kept f hf
      · exact Script.isHollow_of_mem_parse hf

theorem Unspoiled.loadFirst (h : c.Unspoiled) (paths : List String) :
    (c.loadFirst paths).1.Unspoiled ∧ Candid (c.loadFirst paths).2 :=
  loadFirst_induct (P := Unspoiled) (Q := Candid) h paths (fun _ path h => h.load path)
    fun _ => candid_error.mpr rfl

end Cache

namespace Engine

variable {ω : Type} {e e' : Engine ω} {f : Fault} {file : String} {call : Call}

/-- An engine that was told of no empty wait, and is told of none by what it reads. -/
structure Earnest (e : Engine ω) : Prop where
  told : ∀ f ∈ e.diagnostics, f.cause.isHollow = false
  cache : e.scene.cache.Unspoiled

theorem Earnest.of_eq (h : e.Earnest) (hdiagnostics : e'.diagnostics = e.diagnostics)
    (hcache : e'.scene.cache = e.scene.cache) : e'.Earnest :=
  ⟨hdiagnostics ▸ h.told, hcache ▸ h.cache⟩

theorem Earnest.report (h : e.Earnest) (hf : f.cause.isHollow = false) : (e.report f).Earnest := by
  refine ⟨fun f' hf' => ?_, h.cache⟩
  rcases Array.mem_push.mp hf' with hf' | rfl
  · exact h.told f' hf'
  · exact hf

theorem Earnest.foldl_report {faults : List Fault} (h : e.Earnest)
    (hfaults : ∀ f ∈ faults, f.cause.isHollow = false) :
    (faults.foldl Engine.report e).Earnest := by
  induction faults generalizing e with
  | nil => exact h
  | cons f faults ih =>
    exact ih (h.report (hfaults f List.mem_cons_self)) fun f' hf' =>
      hfaults f' (List.mem_cons_of_mem _ hf')

theorem Earnest.reportLines (h : e.Earnest) : e.reportLines.Earnest := by
  have hemptied : (e.withCache { e.scene.cache with faults := [] }).Earnest :=
    ⟨h.told, h.cache.loader, by simp⟩
  exact hemptied.foldl_report h.cache.kept

theorem Earnest.skipFaulty (h : e.Earnest) (hf : f.cause.isHollow = false) :
    (e.skipFaulty file call f).Earnest :=
  (h.report (by rwa [Fault.cause_located])).of_eq rfl rfl

theorem Earnest.follow {course : Except Fault Course} (h : e.Earnest)
    (hcandid : Candid course) (hgenuine : course ≠ .ok .stalled) :
    (e.follow file call course).Earnest := by
  have hlines := h.reportLines
  cases course with
  | error f => exact hlines.skipFaulty (candid_error.mp hcandid)
  | ok course =>
    cases course with
    | next => exact hlines.of_eq rfl rfl
    | moved => exact hlines
    | entered => exact hlines.of_eq (by simp [Engine.follow]) (by simp [Engine.follow])
    | parked => exact hlines
    | stalled => exact absurd rfl hgenuine

theorem Earnest.yield (h : e.Earnest) (p : Position) (i : Instruction) : (e.yield p i).Earnest := by
  unfold Engine.yield
  split
  · exact h
  · exact h.report rfl

theorem Earnest.found (h : e.Earnest) (paths : List String) :
    (e.withCache (e.scene.cache.loadFirst paths).1).reportLines.Earnest ∧
      Candid (e.scene.cache.loadFirst paths).2 := by
  obtain ⟨hcache, hcandid⟩ := h.cache.loadFirst paths
  have hread : (e.withCache (e.scene.cache.loadFirst paths).1).Earnest := ⟨h.told, hcache⟩
  exact ⟨hread.reportLines, hcandid⟩

variable [World ω] {action : Action} {p : Position} {i : Instruction} {r : Request ω}
  {o : Opening ω}

theorem Earnest.acts {course : Except Fault Course} (h : e.Earnest)
    (hacts : e.Acts action e' course) : e'.Earnest ∧ Candid course := by
  cases hacts with
  | talkEmpty lines => exact ⟨h, candid_error.mpr rfl⟩
  | jumpNowhere => exact ⟨h, candid_error.mpr rfl⟩
  | jumpLost lost => exact ⟨h, candid_error.mpr rfl⟩
  | @run target cache entry room found | @runFirst target cache entry room found =>
    have hcache := (h.cache.loadFirst (e.candidates target)).1
    rw [found] at hcache
    exact ⟨⟨h.told, hcache⟩, candid_ok _⟩
  | @runNothing target reads f missing =>
    obtain ⟨hcache, hcandid⟩ := h.cache.loadFirst (e.candidates target)
    rw [missing] at hcache hcandid
    exact ⟨⟨h.told, hcache⟩, candid_error.mpr (candid_error.mp hcandid)⟩
  | runTooDeep full => exact ⟨h, candid_error.mpr rfl⟩
  | _ => exact ⟨h.of_eq rfl rfl, candid_ok _⟩

omit [World ω] in
theorem isHollow_of_resolve {cause : Cause} (h : e.table.resolve call = .error cause) :
    cause.isHollow = false := by
  rcases CommandTable.resolve_eq_error h with rfl | ⟨c, rfl⟩
  · rfl
  · rfl

theorem isHollow_of_refused {command : Command} (htable : e.table = .standard)
    (hresolve : e.table.resolve call = .ok command)
    (hrefuses : command.handler (e.view call) = .error f) : f.cause.isHollow = false := by
  rw [htable] at hresolve
  have hreplies := CommandTable.standard_replies (v := e.view call) hresolve
  rw [hrefuses] at hreplies
  exact Cause.isHollow_of_isOfCall hreplies.1

theorem Earnest.step (h : e.Earnest) (htable : e.table = .standard) (hstep : e.step p i = .ok e') :
    e'.Earnest := by
  cases i with
  | marker name literal line =>
    obtain ⟨-, rfl⟩ := step_marker_eq_ok.mp hstep
    exact h.of_eq rfl rfl
  | call call =>
    have harrived : (e.arrived p).Earnest := h.of_eq (by simp [arrived]) (by simp [arrived])
    have htable' : (e.arrived p).table = .standard := by simpa [arrived] using htable
    cases dispatched_of_dispatch hstep with
    | @unresolved cause unknown =>
      exact harrived.skipFaulty (isHollow_of_resolve unknown)
    | @refused command f resolves refuses =>
      have hfault := isHollow_of_refused htable' resolves refuses
      exact harrived.follow (candid_error.mpr hfault) (by simp)
    | @acted action acted course asks acts =>
      obtain ⟨hacted, hcandid⟩ := harrived.acts acts
      exact hacted.follow hcandid (genuine_of_acts acts (plain_of_asks htable' asks))

omit [World ω] in
theorem Earnest.starts (h : e.Earnest) (script : Script) (owner : Option Owner) :
    (e.starts script owner).phase.engine.Earnest ∧ Candid (e.starts script owner).result := by
  unfold Engine.starts
  split
  · exact ⟨h.report rfl, candid_error.mpr rfl⟩
  · refine ⟨h.of_eq ?_ ?_, candid_ok _⟩
    · simp [Phase.begun, Phase.engine]
      rfl
    · simp [Phase.begun, Phase.engine]

/-- What a request does at once, and what it is answered, does not tell of an empty wait. -/
theorem Earnest.opened (h : e.Earnest)
    (hcache : ∀ cache taken, r = .setCache cache taken → cache.Earnest) (hopened : e.Opened r o) :
    o.phase.engine.Earnest ∧ Candid o.result := by
  cases hopened with
  | @run path owner cache entry found =>
    have hread := (h.found (e.candidates path)).1
    rw [found] at hread
    exact hread.starts entry.script owner
  | @runNothing path owner cache f missing inside =>
    obtain ⟨hread, hcandid⟩ := h.found (e.candidates path)
    rw [missing, candid_error] at hcandid
    rw [missing] at hread
    exact ⟨hread.report hcandid, candid_error.mpr hcandid⟩
  | @runNothingIdle path owner cache f missing outside =>
    obtain ⟨hread, hcandid⟩ := h.found (e.candidates path)
    rw [missing, candid_error] at hcandid
    rw [missing] at hread
    have hended : ((e.withCache cache).reportLines.withChain e.chain.finish).Earnest :=
      hread.of_eq rfl rfl
    exact ⟨hended.report hcandid, candid_error.mpr hcandid⟩
  | @runContent file source owner parsed parses =>
    refine (h.foldl_report fun f hf => ?_).starts parsed.script owner
    rw [← parses] at hf
    exact Script.isHollow_of_mem_parse hf
  | noDialog waits talks => exact ⟨h, candid_error.mpr rfl⟩
  | noSelection waits => exact ⟨h, candid_error.mpr rfl⟩
  | takeDiagnostics => exact ⟨⟨by simp [rests, Phase.engine], h.cache⟩, candid_ok _⟩
  | @setCache cache taken =>
    exact ⟨⟨h.told, hcache cache taken rfl, by simp [rests, Phase.engine, taken]⟩, candid_ok _⟩
  | _ => exact ⟨h.of_eq rfl rfl, candid_ok _⟩

end Engine

open Engine

variable {ω : Type} [World ω]

theorem Round.earnest {s t : Phase ω} (h : s.engine.Earnest) (htable : s.engine.table = .standard)
    (hround : Round s t) : t.engine.Earnest := by
  cases hround with
  | halt held => exact h
  | leave free runs ended leaves => exact h.of_eq rfl rfl
  | finish free ended alone => exact h.of_eq rfl rfl
  | yield free stands next => exact h.yield _ _
  | step free stands next ran => exact h.step htable ran

/-- A request that brings no cache whose loader tells of empty waits. -/
def Request.Earnest (r : Request ω) : Prop :=
  ∀ cache taken, r = .setCache cache taken → cache.Earnest

theorem earnest_of_reachesBy {options : Options} {scene : Scene ω} {s : Phase ω}
    (htaken : scene.cache.faults = []) (hloader : scene.cache.Earnest)
    (h : ReachesBy Request.Earnest (.resting (.fresh .standard options scene)) s) :
    s.engine.Earnest := by
  have hstart : (Phase.resting (.fresh .standard options scene)).engine.Earnest :=
    ⟨by simp [Phase.engine, fresh, ofRunner, Runner.ofOptions], hloader, by
      simp [Phase.engine, fresh, ofRunner, htaken]⟩
  refine invariant_of_reachesBy (P := fun s => s.engine.Earnest) h hstart ?_ ?_
  · intro s t hreach hearnest round
    exact round.earnest hearnest (frame_of_reaches (reaches_of_reachesBy hreach)).1
  · intro e r o _ hearnest hallowed opens
    exact (hearnest.opened hallowed (opened_of_opening opens)).1

/-- A chain that runs a call of a standard command waits for nothing; the command begins one wait at
most, and suspends the chain just if it begins one, which is then what the chain waits for. So no
chain is told that it is to wait for nothing, neither among its diagnostics nor in an answer, unless
a loader says so. -/
theorem waits_begin_one_at_a_time (options : Options) :
    (∀ s : Phase ω, Reachable .standard options s → s.engine.isHeld = false →
      ∀ p call command, CommandTable.standard.resolve call = .ok command →
        command.handler.routine.BeginsProperly call (s.engine.arrived p)) ∧
    ∀ (scene : Scene ω) s, scene.cache.faults = [] → scene.cache.Earnest →
      ReachesBy Request.Earnest (.resting (.fresh .standard options scene)) s →
      (∀ f ∈ s.engine.diagnostics, f.code ≠ "ENGINE_SUSPEND_WITHOUT_WAIT") ∧
      ∀ e r e' f, s = .resting e → r.Earnest → e.answer r = .ok (e', .error f) →
        f.code ≠ "ENGINE_SUSPEND_WITHOUT_WAIT" := by
  have hcode : ∀ f : Fault, f.cause.isHollow = false → f.code ≠ "ENGINE_SUSPEND_WITHOUT_WAIT" := by
    intro f hf
    rw [Cause.isHollow_eq] at hf
    exact of_decide_eq_false hf
  refine ⟨fun s hreach hfree p call command hresolves => ?_,
    fun scene s htaken hloader hreach => ?_⟩
  · have htable : (s.engine.arrived p).table = .standard := by
      rw [arrived, observe_toRunner]
      exact hreach.frame.1
    have hwait : (s.engine.arrived p).chain.wait = none := by
      rw [arrived, observe_toRunner]
      exact wait_of_free hfree
    exact beginsProperly_of_resolves htable hwait (htable ▸ hresolves)
  · have hearnest := earnest_of_reachesBy htaken hloader hreach
    refine ⟨fun f hf => hcode f (hearnest.told f hf), ?_⟩
    rintro e r e' f rfl hallowed hanswer
    obtain ⟨o, hopen, hresult, -⟩ := answer_eq_ok_iff.mp hanswer
    exact hcode f ((hearnest.opened hallowed (opened_of_opening hopen)).2 f hresult)

namespace Rehearsal

def snooze : Script := (Script.parse "snooze" "Sleep(5);").script

def doze : Call := ⟨"Sleep", ["5"], "", "Sleep(5);", 1⟩

theorem earnest_scene : scene.cache.Earnest := by
  intro path f hread
  simp only [scene] at hread
  split at hread
  · cases hread
  · obtain rfl := Except.error.inj hread
    rfl

theorem doze_begins_one_wait : ∃ (s : Phase Recording) (ran : Engine Recording),
    Reachable .standard {} s ∧ s.engine.isHeld = false ∧
    s.engine.chain.position = some ⟨snooze, 0⟩ ∧
    CommandTable.standard.resolve doze = .ok ⟨"Sleep", .exactly 1, Command.sleep⟩ ∧
    Command.sleep.routine.run doze (s.engine.arrived ⟨snooze, 0⟩) = .ok (ran, .ok .suspend) ∧
    Command.sleep.routine.beginnings doze (s.engine.arrived ⟨snooze, 0⟩) = [⟨none, .timer 5⟩] ∧
    ran.chain.wait = some (.timer 5) ∧
    ∀ f ∈ s.engine.diagnostics, f.code ≠ "ENGINE_SUSPEND_WITHOUT_WAIT" := by
  obtain ⟨o, hopen, hstate⟩ := exists_ok
    (r := (fresh .standard {} scene).opening (.runContent "snooze" "Sleep(5);" none))
    (f := fun o => (glance o.phase,
      Command.sleep.routine.beginnings doze (o.phase.engine.arrived ⟨snooze, 0⟩),
      (Command.sleep.routine.run doze (o.phase.engine.arrived ⟨snooze, 0⟩)).toOption.map
        fun ran => ran.2.toOption))
    (b := (⟨some ⟨snooze, 0⟩, [], false, some 10000⟩, [⟨none, .timer 5⟩], some (some .suspend)))
    (by decide +kernel)
  obtain ⟨hglance, hstate⟩ := Prod.mk.inj hstate
  obtain ⟨hbegun, hran⟩ := Prod.mk.inj hstate
  obtain ⟨e, hphase, hp, -, hfree⟩ := running_of_glance hglance
  obtain ⟨⟨ran, outcome⟩, hrun, houtcome⟩ := exists_ok hran
  obtain rfl : outcome = .ok .suspend := eq_ok_of_toOption houtcome
  have hreach : ReachesBy Request.Earnest (.resting (fresh .standard {} scene)) o.phase :=
    .single ⟨_, by simp [Request.Earnest], .request hopen⟩
  have hreachable : Reachable .standard {} o.phase := ⟨scene, rfl, reaches_of_reachesBy hreach⟩
  have hheld : o.phase.engine.isHeld = false := by rw [hphase]; exact hfree
  have hresolves : CommandTable.standard.resolve doze = .ok ⟨"Sleep", .exactly 1, Command.sleep⟩ :=
    CommandTable.standard_resolve (by simp [Command.control]) rfl rfl
  obtain ⟨hproper, htold⟩ := waits_begin_one_at_a_time (ω := Recording) {}
  have hbegins := hproper _ hreachable hheld ⟨snooze, 0⟩ doze _ hresolves
  refine ⟨o.phase, ran, hreachable, hheld, by rw [hphase]; exact hp, hresolves, hrun, hbegun, ?_,
    (htold scene _ rfl earnest_scene hreach).1⟩
  rw [hbegins.waits ran _ hrun, hbegun]
  rfl

/-- A loader that states that a chain waits for nothing. -/
def idlerScene : Scene Recording :=
  let read := fun _ => .error { cause := .stated "ENGINE_SUSPEND_WITHOUT_WAIT" "later" }
  { world := {}, cache := { read } }

/-- What a loader states is told under its own code, whatever the commands do. -/
theorem stated_wait_told : ∃ e : Engine Recording, Reachable .standard {} (.resting e) ∧
    ¬ ∀ f ∈ e.diagnostics, f.code ≠ "ENGINE_SUSPEND_WITHOUT_WAIT" := by
  obtain ⟨e, hserve, htold⟩ := exists_ok
    (r := serve [.runContent "main.txt" "RunScript(\"aside/a.txt\");" none]
      (fresh .standard {} idlerScene))
    (f := fun e => e.diagnostics.toList.any (·.code = "ENGINE_SUSPEND_WITHOUT_WAIT"))
    (b := true) (by decide +kernel)
  refine ⟨e, ⟨idlerScene, rfl, reaches_of_serve hserve⟩, fun hnone => ?_⟩
  obtain ⟨f, hf, hcode⟩ := List.any_eq_true.mp htold
  exact hnone f (Array.mem_toList_iff.mp hf) (of_decide_eq_true hcode)

end Rehearsal

end Cutscene
