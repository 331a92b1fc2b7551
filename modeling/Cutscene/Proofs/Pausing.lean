import Cutscene.Proofs.Interruption
import Cutscene.Proofs.Suspension

/-! Paused chains. A chain that is paused takes whatever arrives as it would take it unpaused, but
runs nothing for it. The run is made up for once the chain is resumed and executed. -/

namespace Cutscene

variable {ω : Type} [World ω]

/-- A request that arrives at a chain: an answer of the player, or a script to start. -/
def Request.arrives : Request ω → Bool
  | .run .. => true
  | .runContent .. => true
  | .closeDialog => true
  | .select _ => true
  | _ => false

omit [World ω]

/-- The engine with its chain paused, whether that runs or not. -/
def Engine.stilled (e : Engine ω) : Engine ω := e.withChain { e.chain with paused := true }

def Phase.stilled : Phase ω → Phase ω
  | resting e => resting e.stilled
  | running left e => running left e.stilled

def Opening.stilled (o : Opening ω) : Opening ω := ⟨o.phase.stilled, o.result⟩

namespace Engine

variable {e e' : Engine ω} {r : Request ω} {o : Opening ω}

theorem pause_of_running (h : e.chain.isRunning = true) : e.pause = e.stilled := by
  simp [pause, stilled, h]

theorem resume_stilled (h : e.chain.paused = false) : e.stilled.resume = e := by
  simp only [resume, stilled, withChain_chain, withChain_withChain, ← h]
  rfl

theorem isHeld_stilled (e : Engine ω) : e.stilled.isHeld = true := by
  simp [isHeld, stilled]

theorem announce_stilled (e : Engine ω) : e.stilled.announce = e.announce.stilled := by
  have hscript : e.stilled.chain.script? = e.chain.script? := rfl
  unfold announce
  rw [hscript]
  cases e.chain.script? with
  | none => rfl
  | some s =>
    have hobserved : e.stilled.observed = e.observed := rfl
    by_cases h : e.observed = true
    · simp only [observe, hobserved, h, if_true]
      rfl
    · simp only [observe, hobserved, h]
      rfl

theorem reportLines_stilled (e : Engine ω) : e.stilled.reportLines = e.reportLines.stilled := by
  rw [reportLines_eq, reportLines_eq]
  rfl

theorem foldl_report_stilled (e : Engine ω) (faults : List Fault) :
    faults.foldl report e.stilled = (faults.foldl report e).stilled := by
  rw [foldl_report, foldl_report]
  rfl

theorem starts_stilled (e : Engine ω) (script : Script) (owner : Option Owner) :
    e.stilled.starts script owner = (e.starts script owner).stilled := by
  have hdepth : e.stilled.nextDepth = e.nextDepth := rfl
  have hlimit : e.stilled.options.maxDepth = e.options.maxDepth := rfl
  have hbegun : ∀ e : Engine ω, (⟨.begun e.stilled.announce, .ok ()⟩ : Opening ω) =
      Opening.stilled ⟨.begun e.announce, .ok ()⟩ := by
    intro e
    rw [announce_stilled]
    rfl
  unfold starts
  rw [hdepth, hlimit]
  split
  · rfl
  · exact hbegun (e.withChain ({ e.chain with owner := owner <|> e.chain.owner }.enter script))

theorem perform_stilled [World ω] (e : Engine ω) (effect : Effect) :
    e.stilled.perform effect = (e.perform effect).map stilled := by
  have hworld : e.stilled.scene.world = e.scene.world := rfl
  unfold perform
  rw [hworld]
  cases World.perform e.scene.world effect with
  | error crash => rfl
  | ok world => rfl

theorem opening_run_stilled [World ω] (e : Engine ω) (path : String) (owner : Option Owner) :
    e.stilled.opening (.run path owner) = (e.opening (.run path owner)).map Opening.stilled := by
  have hcandidates : e.stilled.candidates path = e.candidates path := rfl
  have hscene : e.stilled.scene = e.scene := rfl
  simp only [opening, hcandidates, hscene]
  cases e.scene.cache.loadFirst (e.candidates path) with
  | mk cache found =>
    have hread : (e.stilled.withCache cache).reportLines =
        (e.withCache cache).reportLines.stilled := reportLines_stilled (e.withCache cache)
    rw [hread]
    cases found with
    | ok entry => simp only [starts_stilled, ok_map]
    | error f =>
      have hinside : (e.withCache cache).reportLines.stilled.chain.script?.isSome =
          (e.withCache cache).reportLines.chain.script?.isSome := rfl
      simp only [hinside, ok_map]
      split
      · rfl
      · rfl

theorem opening_closeDialog_stilled [World ω] (e : Engine ω) :
    e.stilled.opening .closeDialog = (e.opening .closeDialog).map Opening.stilled := by
  have hwait : e.stilled.chain.wait = e.chain.wait := rfl
  simp only [opening, hwait]
  cases e.chain.wait with
  | none => rfl
  | some wait =>
    cases wait with
    | dialog => rfl
    | talk lines =>
      cases lines with
      | nil => rfl
      | cons line rest =>
        simp only [perform_stilled]
        cases e.perform (.dialog line.text line.portrait) with
        | error crash => rfl
        | ok shown => rfl
    | _ => rfl

theorem opening_stilled [World ω] (e : Engine ω) (h : r.arrives = true) :
    e.stilled.opening r = (e.opening r).map Opening.stilled := by
  cases r with
  | run path owner => exact opening_run_stilled e path owner
  | runContent file source owner =>
    simp only [opening, foldl_report_stilled, starts_stilled, ok_map]
  | closeDialog => exact opening_closeDialog_stilled e
  | select index =>
    have hwait : e.stilled.chain.wait = e.chain.wait := rfl
    simp only [opening, hwait]
    cases e.chain.wait with
    | none => rfl
    | some wait =>
      cases wait with
      | _ => rfl
  | _ => cases h

theorem engine_stilled (s : Phase ω) : s.stilled.engine = s.engine.stilled := by
  cases s with
  | resting e => rfl
  | running left e => rfl

variable [World ω]

/-- A paused chain that takes a request has done what the request does at once, and nothing else. -/
theorem answer_stilled (harrives : r.arrives = true) (hopen : e.opening r = .ok o) :
    e.stilled.answer r = .ok (o.phase.engine.stilled, o.result) := by
  have hheld : o.stilled.phase.engine.isHeld = true := by
    simp only [Opening.stilled, engine_stilled, isHeld_stilled]
  rw [answer_eq_opening, opening_stilled e harrives, hopen, ok_map, ok_bind, Opening.answer,
    outcome_of_held hheld, ok_map]
  simp only [Opening.stilled, engine_stilled]

theorem ready_of_opened (h : e.Opened r o) (harrives : r.arrives = true)
    (hready : e.chain.paused = false) : o.phase.engine.chain.paused = false := by
  have hstarts : ∀ (e' : Engine ω) (script : Script) (owner : Option Owner),
      e'.chain = e.chain → (e'.starts script owner).phase.engine.chain.paused = false := by
    intro e' script owner hchain
    unfold starts
    split
    · simpa [refusesAloud, refuses, Phase.engine, hchain] using hready
    · simpa [Phase.begun, Phase.engine, Chain.enter, hchain] using hready
  cases h with
  | run found => exact hstarts _ _ _ (by simp)
  | runNothing missing inside => simpa [refusesAloud, refuses, Phase.engine] using hready
  | runNothingIdle missing outside => exact hready
  | runContent parses => exact hstarts _ _ _ (by rw [foldl_report])
  | nextLine waits performed => exact hready
  | closeTalk waits => exact hready
  | closeDialog waits => exact hready
  | noDialog waits talks => exact hready
  | select waits => exact hready
  | noSelection waits => exact hready
  | _ => cases harrives

/-- What a request that arrives leaves to be run is all that an execution of the engine runs. -/
theorem execute_of_opened (h : e.Opened r o) (harrives : r.arrives = true)
    (hok : o.result = .ok ()) : o.phase.engine.execute = o.phase.outcome := by
  have hstarts : ∀ (e' : Engine ω) (script : Script) (owner : Option Owner),
      (e'.starts script owner).result = .ok () →
      (e'.starts script owner).phase.engine.execute = (e'.starts script owner).phase.outcome := by
    intro e' script owner hok
    unfold starts at hok ⊢
    split at hok
    · cases hok
    · next hroom =>
      rw [if_neg hroom]
      simp [Phase.begun, Phase.engine, Phase.outcome, execute]
  cases h with
  | run found => exact hstarts _ _ _ hok
  | runContent parses => exact hstarts _ _ _ hok
  | nextLine waits performed =>
    have hheld : ∀ (shown : Engine ω) (wait : Wait), (shown.park wait).isHeld = true :=
      fun shown wait => isHeld_of_wait rfl
    exact steps_of_held (hheld _ _)
  | closeTalk waits => rfl
  | closeDialog waits => rfl
  | select waits => rfl
  | runNothing missing inside => cases hok
  | runNothingIdle missing outside => cases hok
  | noDialog waits talks => cases hok
  | noSelection waits => cases hok
  | _ => cases harrives

end Engine

open Engine

/-- What arrives at a chain that runs and succeeds there, succeeds as well while the chain is
paused. When the chain is then resumed and executed, the engine, its trace and its scene are what
they would have become without the pause. -/
theorem pausing_defers [World ω] {e e' : Engine ω} {r : Request ω} (hrun : e.chain.isRunning = true)
    (hready : e.chain.paused = false) (harrives : r.arrives = true)
    (h : e.answer r = .ok (e', .ok ())) :
    ∃ held : Engine ω, e.pause.answer r = .ok (held, .ok ()) ∧
      serve [.resume, .execute] held = .ok e' := by
  obtain ⟨o, hopen, hok, hrounds⟩ := answer_eq_ok_iff.mp h
  have hopened := opened_of_opening hopen
  refine ⟨o.phase.engine.stilled, ?_, ?_⟩
  · rw [pause_of_running hrun, answer_stilled harrives hopen, hok]
  · have hexecute : o.phase.engine.execute = .ok e' :=
      (execute_of_opened hopened harrives hok).trans (outcome_iff_rounds.mpr hrounds)
    have hresume := resume_stilled (ready_of_opened hopened harrives hready)
    simp only [serve, answer, succeed, ok_map, ok_bind, hresume, hexecute]

namespace Rehearsal

def deferred : Except (Crash Recording)
    (Engine Recording × Engine.Answer Recording × Engine.Answer Recording) := do
  let (e, _) ← (fresh table { maxSteps := 1 } scene).answer errands
  let taken ← e.answer interruption
  let held ← e.pause.answer interruption
  return (e, taken, held)

/-- While the chain is paused the script has started, but its first line is not run. -/
theorem interruption_deferred : ∃ e e' held : Engine Recording,
    (e.chain.isRunning = true ∧ e.chain.paused = false ∧
      e.answer interruption = .ok (e', .ok ())) ∧
    (e.pause.answer interruption = .ok (held, .ok ()) ∧
      glance (.resting held) = ⟨some ⟨aside, 0⟩, [⟨yielded, 1⟩], true, none⟩) ∧
    (serve [.resume, .execute] held = .ok e' ∧
      glance (.resting e') = ⟨some ⟨yielded, 2⟩, [], false, none⟩) := by
  obtain ⟨⟨e, ⟨e', result⟩, ⟨held, result'⟩⟩, hrun, hspots⟩ := exists_ok (r := deferred)
    (f := fun (e, (e', result), (held, _)) =>
      (e.chain.isRunning, e.chain.paused, result.toBool,
        [glance (.resting e'), glance (.resting held)]))
    (b := (true, false, true, [⟨some ⟨yielded, 2⟩, [], false, none⟩,
      ⟨some ⟨aside, 0⟩, [⟨yielded, 1⟩], true, none⟩])) (by decide +kernel)
  obtain ⟨⟨e₁, result₁⟩, -, hrun⟩ := bind_eq_ok.mp hrun
  obtain ⟨⟨e₂, result₂⟩, htaken, hrun⟩ := bind_eq_ok.mp hrun
  obtain ⟨⟨e₃, result₃⟩, hheld, hrun⟩ := bind_eq_ok.mp hrun
  cases hrun
  simp only [Prod.mk.injEq, List.cons.injEq] at hspots
  obtain ⟨hruns, hready, hok, hspot, hspot', -⟩ := hspots
  cases result with
  | error f => cases hok
  | ok _ =>
    obtain ⟨held', hanswer, hserve⟩ := pausing_defers hruns hready rfl htaken
    obtain ⟨rfl, -⟩ := Prod.mk.inj (Except.ok.inj (hheld.symm.trans hanswer))
    exact ⟨e, e', held, ⟨hruns, hready, htaken⟩, ⟨hanswer, hspot'⟩, hserve, hspot⟩

end Rehearsal

end Cutscene
