import Cutscene.Proofs.Failure
import Cutscene.Proofs.Interruption
import Cutscene.Proofs.Notices
import Cutscene.Proofs.Overtaxing
import Cutscene.Proofs.Passing
import Cutscene.Proofs.Refusal

/-! When a run breaks down. On a recording a request crashes just if its clock runs over, or if it
comes to a call that overtaxes the recording or to a label that has been passed as often as can be
counted. All else that is wrong with a script is told, and the chain goes on behind it. -/

namespace Cutscene

variable {ω : Type} [World ω] {s : Phase ω} {crash : Crash ω}

theorem outcome_eq_error_iff :
    s.outcome = .error crash ↔ ∃ t, Rounds s t ∧ t.Breaks crash := by
  constructor
  · intro h
    cases s with
    | resting e => cases h
    | running left e =>
      obtain ⟨n, ran, t, hlasts, hend⟩ := lasts_to_end (Lasts.start (s := .running left e))
      have hout := (Rounds.outcome_eq hlasts.rounds).symm.trans h
      rcases hend with ⟨e', rfl⟩ | ⟨crash', hbreaks⟩
      · cases hout
      · obtain rfl := Except.error.inj (hbreaks.outcome_eq.symm.trans hout)
        exact ⟨t, hlasts.rounds, hbreaks⟩
  · rintro ⟨t, hrounds, hbreaks⟩
    exact (Rounds.outcome_eq hrounds).trans hbreaks.outcome_eq

namespace Engine

theorem answer_eq_error_iff {e : Engine ω} {r : Request ω} :
    e.answer r = .error crash ↔ e.opening r = .error crash ∨
      ∃ o t, e.opening r = .ok o ∧ Rounds o.phase t ∧ t.Breaks crash := by
  rw [answer_eq_opening, bind_eq_error]
  refine or_congr_right (exists_congr fun o => ?_)
  have hanswer : o.answer = .error crash ↔ o.phase.outcome = .error crash := by
    unfold Opening.answer
    cases o.phase.outcome with
    | error crash' => simp
    | ok e' => simp
  rw [hanswer, outcome_eq_error_iff]
  exact ⟨fun ⟨hopen, t, ht⟩ => ⟨t, hopen, ht⟩, fun ⟨t, hopen, ht⟩ => ⟨hopen, t, ht⟩⟩

/-- A frame passes on a chain that sleeps, and so much time is left then as no clock can show. -/
inductive Outruns (e : Engine ω) : Request ω → Prop where
  | frame {elapsed remaining : Int} (runs : e.chain.isRunning = true)
      (ready : e.chain.paused = false) (sleeps : e.chain.wait = some (.timer remaining))
      (beyond : Interval.word64.contains (remaining - elapsed) = false) :
      Outruns e (.update elapsed)

end Engine

/-- The run for a request comes to a call that asks for what overtaxes the recording. -/
def Engine.Stumbles (e : Engine Recording) (r : Request Recording) : Prop :=
  ∃ o s call action, e.opening r = .ok o ∧ Rounds o.phase s ∧ s.next? = some (.call call) ∧
    s.engine.Asks call action ∧ s.engine.scene.world.Overtaxed action

/-- The run for a request comes to a label that has been passed as often as can be counted. -/
def Engine.Overcounts (e : Engine ω) (r : Request ω) : Prop :=
  ∃ o s, e.opening r = .ok o ∧ Rounds o.phase s ∧ s.Overcounts

open Engine

section Recording

variable {e : Engine Recording} {r : Request Recording} {s : Phase Recording}

theorem opening_update_error_iff {elapsed : Int} :
    (∃ crash, e.opening (.update elapsed) = .error crash) ↔ e.Outruns (.update elapsed) := by
  simp only [opening]
  constructor
  · rintro ⟨crash, h⟩
    cases hstill : !e.chain.isRunning || e.chain.paused with
    | true =>
      simp only [hstill, if_true] at h
      cases h
    | false =>
      obtain ⟨hruns, hready⟩ := Bool.or_eq_false_iff.mp hstill
      simp only [hstill, Bool.false_eq_true, if_false] at h
      cases hwait : e.chain.wait with
      | none =>
        rw [hwait] at h
        cases h
      | some wait =>
        simp only [hwait] at h
        rcases bind_eq_error.mp h with hpoll | ⟨polled, -, h⟩
        · cases wait with
          | timer remaining =>
            refine .frame (by simpa using hruns) hready hwait
              (Bool.eq_false_iff.mpr fun hwithin => ?_)
            simp [Wait.poll, hwithin] at hpoll
          | _ => cases hpoll
        · cases h
  · rintro ⟨runs, ready, sleeps, beyond⟩
    refine ⟨⟨.clock, e.scene.world⟩, ?_⟩
    have hstill : (!e.chain.isRunning || e.chain.paused) = false := by simp [runs, ready]
    simp only [hstill, Bool.false_eq_true, if_false, sleeps, Wait.poll, beyond]
    rfl

theorem opening_error_iff : (∃ crash, e.opening r = .error crash) ↔ e.Outruns r := by
  have hnever : ∀ {r : Request Recording}, (∀ elapsed, r ≠ .update elapsed) →
      (∃ o, e.opening r = .ok o) →
      ((∃ crash, e.opening r = .error crash) ↔ e.Outruns r) := by
    rintro r hother ⟨o, hok⟩
    constructor
    · rintro ⟨crash, h⟩
      rw [hok] at h
      cases h
    · rintro ⟨⟩
      exact absurd rfl (hother _)
  cases r with
  | update elapsed => exact opening_update_error_iff
  | run path owner =>
    refine hnever (by simp) ?_
    simp only [opening]
    cases (e.scene.cache.loadFirst (e.candidates path)).2 with
    | ok entry => exact ⟨_, rfl⟩
    | error f => exact ⟨_, rfl⟩
  | closeDialog =>
    refine hnever (by simp) ?_
    simp only [opening]
    cases e.chain.wait with
    | none => exact ⟨_, rfl⟩
    | some wait =>
      cases wait with
      | talk lines =>
        cases lines with
        | nil => exact ⟨_, rfl⟩
        | cons line rest =>
          obtain ⟨world, hshown⟩ := e.shows line
          have hperform := perform_eq_ok.mpr ⟨world, hshown, rfl⟩
          simp only [hperform, ok_bind]
          exact ⟨_, rfl⟩
      | _ => exact ⟨_, rfl⟩
  | select index =>
    refine hnever (by simp) ?_
    simp only [opening]
    cases e.chain.wait with
    | none => exact ⟨_, rfl⟩
    | some wait =>
      cases wait with
      | _ => exact ⟨_, rfl⟩
  | _ => exact hnever (by simp) ⟨_, rfl⟩

theorem dispatch_error_iff {file : String} {call : Call} :
    (∃ crash, e.dispatch file call = .error crash) ↔
      ∃ action, e.Asks call action ∧ ∃ crash, e.act action = .error crash := by
  constructor
  · rintro ⟨crash, h⟩
    rw [dispatch_eq] at h
    split at h
    · cases h
    · next command hresolves =>
      split at h
      · cases h
      · next action hasks =>
        rcases bind_eq_error.mp h with hact | ⟨acted, -, h⟩
        · exact ⟨action, ⟨command, hresolves, hasks⟩, crash, hact⟩
        · cases h
  · rintro ⟨action, hasks, crash, hact⟩
    exact ⟨crash, by rw [dispatch_of_asks hasks, hact, error_bind]⟩

theorem marker_error_iff {p : Position} {name literal : String} {line : Nat} :
    (∃ crash, e.step p (.marker name literal line) = .error crash) ↔
      e.chain.canCount name = false := by
  constructor
  · rintro ⟨crash, h⟩
    rcases bind_eq_error.mp h with hpass | ⟨passed, -, h⟩
    · exact (pass_eq_error.mp hpass).1
    · cases h
  · intro hfull
    have hpass := pass_eq_error.mpr ⟨hfull, rfl⟩
    exact ⟨_, by rw [step, hpass, error_bind]⟩

theorem exhausts_iff {p : Position} {call : Call} (stands : e.chain.position = some p) :
    (∃ action, e.Asks call action ∧ e.Exhausts action) ↔
      ∃ x, e.passes? p (.call call) = some x ∧
        (e.chain.visitsOf x.key).toNat + 1 = UInt32.size := by
  constructor
  · rintro ⟨_, hasks, @⟨label, p', i, stands', marked, full⟩⟩
    obtain rfl : p' = p := Option.some.inj (stands'.symm.trans stands)
    refine ⟨⟨p'.script.file, Label.normalize label⟩, ?_, ?_⟩
    · rw [passes?_of_jump hasks, Script.labelIndex?, marked, Option.map_some]
    · rw [← Chain.hereKey_of_position stands]
      exact Chain.canCount_eq_false_iff.mp full
  · rintro ⟨x, hpasses, hfull⟩
    by_cases hjumps : ∃ label, e.Asks call (.jump label)
    · obtain ⟨label, hasks⟩ := hjumps
      rw [passes?_of_jump hasks] at hpasses
      obtain ⟨i, marked, rfl⟩ := Option.map_eq_some_iff.mp hpasses
      refine ⟨.jump label, hasks, .jump stands marked (Chain.canCount_eq_false_iff.mpr ?_)⟩
      rwa [Chain.hereKey_of_position stands]
    · rw [passes?_of_other (not_exists.mp hjumps)] at hpasses
      cases hpasses

/-- What makes an instruction break down. -/
theorem step_error_iff {p : Position} {i : Instruction} (free : e.chain.wait = none)
    (stands : e.chain.position = some p) :
    (∃ crash, e.step p i = .error crash) ↔
      (∃ call action, i = .call call ∧ e.Asks call action ∧ e.scene.world.Overtaxed action) ∨
      ∃ x, e.passes? p i = some x ∧ (e.chain.visitsOf x.key).toNat + 1 = UInt32.size := by
  cases i with
  | marker name literal line =>
    rw [marker_error_iff, Chain.canCount_eq_false_iff, Chain.hereKey_of_position stands]
    simp [passes?]
  | call call =>
    have harrived : ∀ action, (e.arrived p).Asks call action ↔ e.Asks call action :=
      fun action => asks_observe
    have hstands : (e.arrived p).chain.position = some p := by simpa [arrived] using stands
    have hpasses : (e.arrived p).passes? p (.call call) = e.passes? p (.call call) := by
      simp [arrived, passes?, asked?, view]
    have hchain : (e.arrived p).chain = e.chain := by simp [arrived]
    have hworld : (e.arrived p).scene.world = e.scene.world := by simp [arrived]
    have hexhausts : (∃ action, (e.arrived p).Asks call action ∧ (e.arrived p).Exhausts action) ↔
        _ := exhausts_iff hstands
    simp only [hpasses, hchain, harrived] at hexhausts
    change (∃ crash, (e.arrived p).dispatch p.script.file call = .error crash) ↔ _
    rw [dispatch_error_iff, ← hexhausts]
    simp only [act_error_iff (hchain.symm ▸ free), harrived, hworld, and_or_left, exists_or]
    simp

theorem breaks_iff : (∃ crash, s.Breaks crash) ↔
    (∃ call action, s.next? = some (.call call) ∧ s.engine.Asks call action ∧
      s.engine.scene.world.Overtaxed action) ∨ s.Overcounts := by
  constructor
  · rintro ⟨crash, hbreaks⟩
    cases hbreaks with
    | @step left e p i _ free stands next breaks overtaxed =>
      refine ((step_error_iff (wait_of_free free) stands).mp ⟨crash, breaks⟩).imp ?_ ?_
      · rintro ⟨call, action, rfl, hasks, htaxed⟩
        exact ⟨call, action, next?_of_inside left free stands next, hasks, htaxed⟩
      · rintro ⟨x, hpasses, hfull⟩
        exact ⟨x, (passes?_of_free free stands next).trans hpasses, hfull⟩
  · intro h
    have hfree : s.next? ≠ none ∨ s.passes? ≠ none := by
      rcases h with ⟨call, action, hnext, -⟩ | ⟨x, hpasses, -⟩
      · exact Or.inl (by rw [hnext]; nofun)
      · exact Or.inr (by rw [hpasses]; nofun)
    obtain ⟨left, e, p, i, rfl, free, stands, next⟩ := inside_of_next hfree
    have hbreaks : ∃ crash, e.step p i = .error crash := by
      refine (step_error_iff (wait_of_free free) stands).mpr (h.imp ?_ ?_)
      · rintro ⟨call, action, hnext, hasks, htaxed⟩
        rw [next?_of_inside left free stands next] at hnext
        exact ⟨call, action, Option.some.inj hnext, hasks, htaxed⟩
      · rintro ⟨x, hpasses, hfull⟩
        exact ⟨x, (passes?_of_free free stands next).symm.trans hpasses, hfull⟩
    obtain ⟨crash, hbreaks⟩ := hbreaks
    exact ⟨crash, .step free stands next hbreaks (overtaxes_of_step (wait_of_free free) hbreaks)⟩

theorem answer_error_iff : (∃ crash, e.answer r = .error crash) ↔
    e.Outruns r ∨ e.Stumbles r ∨ e.Overcounts r := by
  simp only [answer_eq_error_iff, exists_or, opening_error_iff]
  refine or_congr_right ?_
  constructor
  · rintro ⟨crash, o, s, hopen, hrounds, hbreaks⟩
    refine (breaks_iff.mp ⟨crash, hbreaks⟩).imp ?_ ?_
    · rintro ⟨call, action, hcall⟩
      exact ⟨o, s, call, action, hopen, hrounds, hcall⟩
    · exact fun hfull => ⟨o, s, hopen, hrounds, hfull⟩
  · rintro (⟨o, s, call, action, hopen, hrounds, hcall⟩ | ⟨o, s, hopen, hrounds, hfull⟩)
    · obtain ⟨crash, hbreaks⟩ := breaks_iff.mpr (Or.inl ⟨call, action, hcall⟩)
      exact ⟨crash, o, s, hopen, hrounds, hbreaks⟩
    · obtain ⟨crash, hbreaks⟩ := breaks_iff.mpr (Or.inr hfull)
      exact ⟨crash, o, s, hopen, hrounds, hbreaks⟩

end Recording

/-- How what is wrong with a script shows while a request is answered. -/
structure Engine.Surfaces (e : Engine ω) (r : Request ω) : Prop where
  /-- Lines that cannot be read are told where they are read. -/
  lines : ∀ e' result, r.isPlain = true → e.answer r = .ok (e', result) →
    ∃ log, e.Notes r.texts log e'
  /-- A call that fails is told, and the chain goes on behind it. -/
  calls : ∀ o left e' p call f, e.opening r = .ok o → Rounds o.phase (.running (left + 1) e') →
    e'.isHeld = false → e'.chain.position = some p → p.instruction? = some (.call call) →
    (e'.arrived p).Fails call f → ∃ reads, Round (.running (left + 1) e')
      (.running left ((e'.arrived p).skipped (f.located p.script.file call.line) reads))
  /-- A chain that has used up its steps is told so, and can go on from where it stands. -/
  yields : ∀ o e' p i, e.opening r = .ok o → Rounds o.phase (.running 0 e') → e'.isHeld = false →
    e'.chain.position = some p → p.instruction? = some i →
    Round (.running 0 e') (.resting (e'.yield p i)) ∧
      (e'.yield p i).hasPending Cause.stepsCode = true ∧ (e'.yield p i).chain = e'.chain
  /-- A script that is not started is told, and the host gets the same fault. -/
  starts : ∀ e' f, r.starts = true → e.answer r = .ok (e', .error f) →
    e'.diagnostics.toList.getLast? = some f

namespace Engine

variable {e e' : Engine ω} {r : Request ω} {f : Fault}

theorem report_of_failed_start (hstart : r.starts = true) (h : e.answer r = .ok (e', .error f)) :
    ∃ e₁ : Engine ω, e' = e₁.report f := by
  cases r with
  | run path owner =>
    simp only [answer, runScript] at h
    cases hfound : (e.scene.cache.loadFirst (e.candidates path)).2 with
    | ok entry =>
      rw [hfound] at h
      exact ⟨_, start_refused h⟩
    | error f' =>
      rw [hfound] at h
      obtain ⟨hreport, hf⟩ := Prod.mk.inj (Except.ok.inj h)
      obtain rfl := Except.error.inj hf
      exact ⟨_, hreport.symm⟩
  | runContent file source owner => exact ⟨_, start_refused h⟩
  | _ => cases hstart

theorem surfaces (htaken : e.scene.cache.faults = []) (r : Request ω) : e.Surfaces r where
  lines e' result hplain h := notes_of_answer htaken hplain h
  calls o left e' p call f hopen hrounds hfree hp hi hfails := by
    have htaken' : e'.scene.cache.faults = [] :=
      (Rounds.keeps hrounds).taken ((opens_of_opening hopen).2.taken htaken)
    obtain ⟨reads, hstep⟩ := dispatch_of_fails (by simpa [arrived] using htaken') hfails
    exact ⟨reads, .step hfree hp hi hstep⟩
  yields o e' p i _ _ hfree hp hi :=
    ⟨.yield hfree hp hi, hasPending_yield e' p i, yield_chain e' p i⟩
  starts e' f hstart h := by
    obtain ⟨e₁, rfl⟩ := report_of_failed_start hstart h
    simp [report]

end Engine

/-- On a recording a request crashes just if the clock runs over, or if the run comes to a call that
overtaxes the recording, which of the standard commands three may do, or to a label that has been
passed as often as can be counted. Whatever else is wrong with a script is told, and the chain goes
on. -/
theorem breaks_down_iff_overtaxed {table : CommandTable} {options : Options}
    {scene : Scene Recording} {rs : List (Request Recording)} {e : Engine Recording}
    (htaken : scene.cache.faults = []) (hserve : serve rs (fresh table options scene) = .ok e)
    (r : Request Recording) :
    ((∃ crash, e.answer r = .error crash) ↔ e.Outruns r ∨ e.Stumbles r ∨ e.Overcounts r) ∧
    (∀ (d : Engine Recording) call action, d.table = .standard → d.Asks call action →
      d.scene.world.Overtaxed action →
        CommandTable.key call.name ∈ ["Talk", "AddGoods", "DelGoods"].map CommandTable.key) ∧
    e.Surfaces r := by
  refine ⟨answer_error_iff, ?_, surfaces (taken_of_serve htaken hserve) r⟩
  rintro d call action htable ⟨command, hresolves, hasks⟩ htaxed
  rw [htable] at hresolves
  exact CommandTable.standard_taxing (v := d.view call) hresolves hasks htaxed.taxes

namespace Rehearsal

/-- Two lines are to be said from the last to the first. -/
def quarrel : Scene Recording where
  world := { talk := .ofPairs [(1, ⟨"You lie!", 0⟩), (3, ⟨"I do not!", 0⟩)] }
  cache := { read := fun _ => .ok "Talk(3, 1);\nMessage(\"Silence.\");" }

def breakdown? (r : Except (Crash Recording) (Engine.Answer Recording)) : Option Breakdown :=
  match r with
  | .error crash => some crash.breakdown
  | .ok _ => none

theorem quarrelling :
    breakdown? ((fresh .standard {} quarrel).answer (.run "quarrel" none)) =
      some (.talkRange 3 1) := by
  decide +kernel

/-- The script is not ended by a fault of its chain, nor does its second line run. -/
theorem quarrel_breaks_down : ∃ crash,
    (fresh .standard {} quarrel).answer (.run "quarrel" none) = .error crash ∧
      crash.breakdown = .talkRange 3 1 := by
  have hbreakdown := quarrelling
  cases hanswer : (fresh .standard {} quarrel).answer (.run "quarrel" none) with
  | ok a =>
    rw [hanswer] at hbreakdown
    cases hbreakdown
  | error crash =>
    rw [hanswer] at hbreakdown
    exact ⟨crash, rfl, Option.some.inj hbreakdown⟩

/-- The first thing that is called for when the quarrel is run. -/
def quarrelsOver? (o : Opening Recording) : Option Action :=
  match o.phase.next? with
  | some (.call call) => o.phase.engine.asked? call
  | _ => none

theorem quarrel_stumbles : (fresh .standard {} quarrel).Stumbles (.run "quarrel" none) ∧
    ∃ crash, (fresh .standard {} quarrel).answer (.run "quarrel" none) = .error crash := by
  have hserve : serve [] (fresh .standard {} quarrel) = .ok (fresh .standard {} quarrel) := rfl
  obtain ⟨hiff, -, -⟩ := breaks_down_iff_overtaxed rfl hserve (.run "quarrel" none)
  obtain ⟨o, hopen, hread⟩ := exists_ok
    (r := (fresh .standard {} quarrel).opening (.run "quarrel" none))
    (f := fun o => (quarrelsOver? o, o.phase.engine.scene.world.talk.entries.isEmpty))
    (b := (some (.talk 3 1), false)) (by decide +kernel)
  obtain ⟨hasked, hlines⟩ := Prod.mk.inj hread
  have hstumbles : (fresh .standard {} quarrel).Stumbles (.run "quarrel" none) := by
    unfold quarrelsOver? at hasked
    split at hasked
    · next call hnext =>
      refine ⟨o, o.phase, call, .talk 3 1, hopen, .refl, hnext, asked?_eq_some_iff.mp hasked, ?_⟩
      exact .talk (by simpa using hlines) (by decide)
    · cases hasked
  exact ⟨hstumbles, hiff.mpr (Or.inr (Or.inl hstumbles))⟩

end Rehearsal

end Cutscene
