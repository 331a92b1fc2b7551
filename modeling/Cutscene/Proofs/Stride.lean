import Cutscene.Proofs.Acts
import Cutscene.Proofs.Opened
import Cutscene.Proofs.Reachable

/-! What a turn does to the chain: an instruction makes one stride, and a request opens in one of a
few ways. No turn changes the table or the options, and none leaves faults in the cache. -/

namespace Cutscene

namespace Engine

variable {ω : Type} [World ω]

/-- What running an instruction makes of the chain. -/
inductive Stride (e : Engine ω) : Instruction → Chain → Prop where
  | pass {name literal : String} {line : Nat} (counts : e.chain.canCount name = true) :
      Stride e (.marker name literal line) (e.chain.countVisit name).advance
  | advance {call : Call} : Stride e (.call call) e.chain.advance
  | stay {call : Call} : Stride e (.call call) e.chain
  | park {call : Call} (wait : Wait) : Stride e (.call call) { e.chain with wait := some wait }
  | jump {call : Call} {p : Position} {name : String} {i : Nat} (stands : e.chain.position = some p)
      (marked : p.script.markerOf? name = some i) (counts : e.chain.canCount name = true) :
      Stride e (.call call) { e.chain.countVisit name with line := i + 1 }
  | enter {call : Call} {target : String} {script : Script} (asks : e.Asks call (.run target))
      (room : e.chain.depth + 1 ≤ e.options.maxDepth) : Stride e (.call call) (e.chain.enter script)
  | goBack {call : Call} (asks : e.Asks call .goBack) : Stride e (.call call) e.chain.goBack

theorem stride_of_dispatched {e e' : Engine ω} {file : String} {call : Call}
    (h : e.Dispatched file call e') : e.Stride (.call call) e'.chain := by
  cases h with
  | unresolved unknown => exact .advance
  | refused resolves refuses =>
    rw [follow_chain]
    exact .advance
  | acted asks acts =>
    rw [follow_chain]
    cases acts with
    | proceed => exact .advance
    | perform performed => exact .advance
    | performAndPark performed free => exact .park _
    | park free => exact .park _
    | assign => exact .advance
    | draw => exact .advance
    | talk lines performed free => exact .park _
    | talkEmpty lines => exact .advance
    | jump stands marked counts => exact .jump stands marked counts
    | jumpNowhere => exact .advance
    | jumpLost lost => exact .advance
    | run room found inside => exact .enter asks room
    | runFirst room found lost => exact .enter asks room
    | runNothing missing => exact .advance
    | runTooDeep full => exact .advance
    | goBack => exact .goBack asks
    | stay => exact .stay
    | stall free => exact .advance
    | stallWaiting waits => exact .stay

theorem asks_observe {e : Engine ω} {event : Event} {call : Call} {action : Action} :
    (e.observe event).Asks call action ↔ e.Asks call action := by
  simp only [Asks, view, observe_toRunner, observe_world]

/-- The trace that is left on the way does not matter. -/
theorem Stride.of_observe {e : Engine ω} {event : Event} {i : Instruction} {c : Chain}
    (h : (e.observe event).Stride i c) : e.Stride i c := by
  have hrunner := observe_toRunner e event
  cases h with
  | pass counts =>
    rw [hrunner] at counts
    simpa only [hrunner] using Stride.pass counts
  | advance => simpa only [hrunner] using Stride.advance
  | stay => simpa only [hrunner] using Stride.stay
  | park wait => simpa only [hrunner] using Stride.park wait
  | jump stands marked counts =>
    rw [hrunner] at stands counts
    simpa only [hrunner] using Stride.jump stands marked counts
  | enter asks room =>
    rw [hrunner] at room
    simpa only [hrunner] using Stride.enter (asks_observe.mp asks) room
  | goBack asks => simpa only [hrunner] using Stride.goBack (asks_observe.mp asks)

/-- An instruction makes one of the strides listed. -/
theorem stride_of_step {e e' : Engine ω} {p : Position} {i : Instruction}
    (h : e.step p i = .ok e') : e.Stride i e'.chain := by
  cases i with
  | marker name literal line =>
    obtain ⟨hcounts, rfl⟩ := step_marker_eq_ok.mp h
    exact .pass hcounts
  | call call => exact (stride_of_dispatched (dispatched_of_dispatch h)).of_observe

/-- What a request makes of the chain at once. -/
inductive Opens (e : Engine ω) : Request ω → Chain → Prop where
  | keep {r : Request ω} : Opens e r e.chain
  | finish {r : Request ω} (outside : e.chain.script?.isSome = false) : Opens e r e.chain.finish
  | enter {r : Request ω} (script : Script) (owner : Option Owner)
      (room : e.nextDepth ≤ e.options.maxDepth) :
      Opens e r ({ e.chain with owner }.enter script)
  | rewait {r : Request ω} {wait : Wait} (waits : e.chain.wait = some wait) (wait' : Wait) :
      Opens e r { e.chain with wait := some wait' }
  | goOn {r : Request ω} {wait : Wait} (waits : e.chain.wait = some wait) :
      Opens e r { e.chain with wait := none }.advance
  | pause (runs : e.chain.isRunning = true) : Opens e .pause { e.chain with paused := true }
  | resume : Opens e .resume { e.chain with paused := false }
  | stop : Opens e .stop {}

/-- What no turn changes; whoever reads a script takes the faults of its lines at once. -/
structure Keeps (e e' : Engine ω) : Prop where
  table : e'.table = e.table
  options : e'.options = e.options
  taken : e.scene.cache.faults = [] → e'.scene.cache.faults = []

omit [World ω] in
theorem Keeps.refl (e : Engine ω) : e.Keeps e := ⟨rfl, rfl, id⟩

omit [World ω] in
theorem Keeps.trans {e e' e'' : Engine ω} (h : e.Keeps e') (h' : e'.Keeps e'') : e.Keeps e'' :=
  ⟨h'.table.trans h.table, h'.options.trans h.options, h'.taken ∘ h.taken⟩

omit [World ω] in
theorem keeps_withChain (e : Engine ω) (c : Chain) : e.Keeps (e.withChain c) := ⟨rfl, rfl, id⟩

omit [World ω] in
theorem keeps_report (e : Engine ω) (f : Fault) : e.Keeps (e.report f) := ⟨rfl, rfl, id⟩

omit [World ω] in
theorem keeps_foldl_report (e : Engine ω) (faults : List Fault) :
    e.Keeps (faults.foldl report e) := by
  rw [foldl_report]
  exact ⟨rfl, rfl, id⟩

omit [World ω] in
theorem keeps_observe (e : Engine ω) (event : Event) : e.Keeps (e.observe event) :=
  ⟨by simp, by simp, by simp⟩

omit [World ω] in
theorem keeps_announce (e : Engine ω) : e.Keeps e.announce := ⟨by simp, by simp, by simp⟩

omit [World ω] in
theorem keeps_skipFaulty (e : Engine ω) (file : String) (call : Call) (f : Fault) :
    e.Keeps (e.skipFaulty file call f) :=
  (keeps_report e _).trans (keeps_withChain _ _)

omit [World ω] in
theorem keeps_reportLines (e : Engine ω) : e.Keeps e.reportLines :=
  ⟨by simp, by simp, fun _ => by simp⟩

omit [World ω] in
theorem keeps_follow (e : Engine ω) (file : String) (call : Call) (course : Except Fault Course) :
    e.reportLines.Keeps (e.follow file call course) := by
  cases course with
  | error f => exact keeps_skipFaulty _ _ _ _
  | ok course =>
    cases course with
    | next => exact keeps_withChain _ _
    | moved => exact .refl _
    | entered => exact keeps_announce _
    | parked => exact .refl _
    | stalled => exact keeps_skipFaulty _ _ _ _

omit [World ω] in
theorem keeps_yield (e : Engine ω) (p : Position) (i : Instruction) : e.Keeps (e.yield p i) := by
  unfold yield
  split
  · exact .refl e
  · exact keeps_report e _

theorem acts_frame {e e' : Engine ω} {action : Action} {course : Except Fault Course}
    (h : e.Acts action e' course) : e'.table = e.table ∧ e'.options = e.options := by
  cases h <;> simp [draw]

theorem keeps_step {e e' : Engine ω} {p : Position} {i : Instruction} (h : e.step p i = .ok e') :
    e.Keeps e' := by
  cases i with
  | marker name literal line =>
    obtain ⟨-, rfl⟩ := step_marker_eq_ok.mp h
    exact keeps_withChain _ _
  | call call =>
    refine (keeps_observe e (.reached p.script.file p.line)).trans ?_
    cases dispatched_of_dispatch h with
    | unresolved unknown => exact keeps_skipFaulty _ _ _ _
    | refused resolves refuses => exact (keeps_reportLines _).trans (keeps_follow _ _ _ _)
    | @acted action acted course asks acts =>
      obtain ⟨htable, hoptions⟩ := acts_frame acts
      have hfollow := keeps_follow acted p.script.file call course
      exact ⟨hfollow.table.trans (by simpa using htable),
        hfollow.options.trans (by simpa using hoptions), fun _ => hfollow.taken (by simp)⟩

omit [World ω] in
theorem keeps_read (e : Engine ω) (cache : Cache) : e.Keeps (e.withCache cache).reportLines :=
  ⟨by simp, by simp, fun _ => by simp⟩

omit [World ω] in
theorem opens_starts {e e' : Engine ω} (hkeeps : e.Keeps e') (hchain : e'.chain = e.chain)
    (r : Request ω) (script : Script) (owner : Option Owner) :
    e.Opens r (e'.starts script owner).phase.chain ∧
      e.Keeps (e'.starts script owner).phase.engine := by
  unfold starts
  split
  · refine ⟨?_, hkeeps.trans (keeps_report _ _)⟩
    simpa [refusesAloud, refuses, Phase.chain, Phase.engine, hchain] using Opens.keep
  · next hroom =>
    simp only [Phase.begun, Phase.chain, Phase.engine]
    refine ⟨?_, hkeeps.trans ((keeps_withChain _ _).trans (keeps_announce _))⟩
    have hroom : e.nextDepth ≤ e.options.maxDepth := by
      simp only [nextDepth, hchain, hkeeps.options] at hroom ⊢
      omega
    simpa [Phase.begun, Phase.chain, Phase.engine, hchain] using Opens.enter script _ hroom

theorem Opened.opens {e : Engine ω} {r : Request ω} {o : Opening ω} (h : e.Opened r o) :
    e.Opens r o.phase.chain ∧ e.Keeps o.phase.engine := by
  cases h with
  | run found => exact opens_starts (keeps_read e _) (by simp) _ _ _
  | runNothing missing inside =>
    refine ⟨?_, (keeps_read e _).trans (keeps_report _ _)⟩
    simpa [refusesAloud, refuses, Phase.chain, Phase.engine] using Opens.keep
  | runNothingIdle missing outside =>
    exact ⟨.finish outside, (keeps_read e _).trans ((keeps_withChain _ _).trans (keeps_report _ _))⟩
  | runContent parses => exact opens_starts (keeps_foldl_report e _) (by rw [foldl_report]) _ _ _
  | execute => exact ⟨.keep, .refl e⟩
  | updateStill still => exact ⟨.keep, .refl e⟩
  | updateFree ready free => exact ⟨.keep, .refl e⟩
  | updateWaiting ready waits polled => exact ⟨.rewait waits _, keeps_withChain _ _⟩
  | updateEnded ready waits polled => exact ⟨.goOn waits, keeps_withChain _ _⟩
  | nextLine waits performed => exact ⟨.rewait waits _, rfl, rfl, id⟩
  | closeTalk waits => exact ⟨.goOn waits, keeps_withChain _ _⟩
  | closeDialog waits => exact ⟨.goOn waits, keeps_withChain _ _⟩
  | noDialog waits talks => exact ⟨.keep, .refl e⟩
  | select waits => exact ⟨.goOn waits, rfl, rfl, id⟩
  | noSelection waits => exact ⟨.keep, .refl e⟩
  | pause runs => exact ⟨.pause runs, keeps_withChain _ _⟩
  | pauseIdle idle => exact ⟨.keep, .refl e⟩
  | resume => exact ⟨.resume, keeps_withChain _ _⟩
  | stop => exact ⟨.stop, keeps_withChain _ _⟩
  | takeDiagnostics => exact ⟨.keep, rfl, rfl, id⟩
  | observe => exact ⟨.keep, rfl, rfl, id⟩
  | setWorld => exact ⟨.keep, rfl, rfl, id⟩
  | @setCache cache taken => exact ⟨.keep, rfl, rfl, fun _ => taken⟩

theorem opens_of_opening {e : Engine ω} {r : Request ω} {o : Opening ω}
    (h : e.opening r = .ok o) : e.Opens r o.phase.chain ∧ e.Keeps o.phase.engine :=
  (opened_of_opening h).opens

end Engine

open Engine

variable {ω : Type} [World ω] {s t : Phase ω}

theorem Round.keeps (h : Round s t) : s.engine.Keeps t.engine := by
  cases h with
  | halt held => exact .refl _
  | leave free runs ended leaves => exact keeps_withChain _ _
  | finish free ended alone => exact keeps_withChain _ _
  | yield free stands next => exact keeps_yield _ _ _
  | step free stands next ran => exact keeps_step ran

theorem Rounds.keeps (h : Rounds s t) : s.engine.Keeps t.engine := by
  induction h with
  | refl => exact .refl _
  | tail _ round ih => exact ih.trans round.keeps

theorem Turn.keeps {asked : Option (Request ω)} (h : Turn asked s t) : s.engine.Keeps t.engine := by
  cases h with
  | round round => exact round.keeps
  | request opens => exact (opens_of_opening opens).2

theorem Engine.keeps_of_answer {e e' : Engine ω} {r : Request ω} {result : Except Fault Unit}
    (h : e.answer r = .ok (e', result)) : e.Keeps e' := by
  obtain ⟨o, hopen, -, hrounds⟩ := answer_eq_ok_iff.mp h
  exact (opens_of_opening hopen).2.trans (Rounds.keeps hrounds)

theorem keeps_of_reaches (h : Reaches s t) : s.engine.Keeps t.engine :=
  invariant_of_reaches (P := fun t => s.engine.Keeps t.engine) h (.refl _)
    fun _ hkeeps hturn => hkeeps.trans hturn.keeps

theorem frame_of_reaches {table : CommandTable} {options : Options} {scene : Scene ω}
    (h : Reaches (.resting (.fresh table options scene)) s) :
    s.engine.table = table ∧ s.engine.options = options :=
  ⟨(keeps_of_reaches h).table, (keeps_of_reaches h).options⟩

theorem Reachable.frame {table : CommandTable} {options : Options}
    (h : Reachable table options s) :
    s.engine.table = table ∧ s.engine.options = options ∧ s.engine.scene.cache.faults = [] := by
  obtain ⟨scene, htaken, hreach⟩ := h
  obtain ⟨htable, hoptions⟩ := frame_of_reaches hreach
  exact ⟨htable, hoptions, (keeps_of_reaches hreach).taken htaken⟩

end Cutscene
