import Cutscene.Proofs.Request
import Mathlib.Logic.Relation

/-! The loop of an engine, one round at a time. A round leaves one finished script, ends the chain,
runs one instruction, or lets the engine rest; a run of so many steps is what its rounds come to. -/

namespace Cutscene

namespace Position

theorem isAtEnd_iff {p : Position} : p.isAtEnd = true ↔ p.instruction? = none := by
  simp only [isAtEnd, instruction?, decide_eq_true_eq, List.getElem?_eq_none_iff]
  rfl

theorem isAtEnd_eq_false_iff {p : Position} : p.isAtEnd = false ↔ ∃ i, p.instruction? = some i := by
  rw [← Option.ne_none_iff_exists', ne_eq, ← isAtEnd_iff, Bool.not_eq_true]

end Position

namespace Chain

variable {c c' : Chain}

theorem settle_of_inside {p : Position} {i : Instruction} (hp : c.position = some p)
    (hi : p.instruction? = some i) : c.settle = c := by
  have hin : p.isAtEnd = false := Position.isAtEnd_eq_false_iff.mpr ⟨i, hi⟩
  have hstays : unwind? p c.callers = some (p, c.callers) := by
    cases c.callers <;> simp [unwind?, hin]
  simp only [settle, hp, hstays]
  exact standingAt_self hp

theorem settle_leave (hruns : c.script?.isSome = true) (hend : c.isAtEnd = true)
    (hleave : c.leave? = some c') : c.settle = c'.settle := by
  obtain ⟨p, hp⟩ := Option.isSome_iff_exists.mp (isSome_position.trans hruns)
  have hpend : p.isAtEnd = true := by simpa [isAtEnd, hp] using hend
  obtain ⟨caller, callers, hc, rfl⟩ := leave?_eq_some.mp hleave
  simp only [settle, hp, hc, unwind?, hpend, if_true]
  rfl

theorem settle_finish (hend : c.isAtEnd = true)
    (hc : c.script?.isSome = true → c.callers = []) : c.settle = c.finish := by
  cases hp : c.position with
  | none => simp [settle, hp]
  | some p =>
    have hruns : c.script?.isSome = true := by rw [← isSome_position, hp]; rfl
    have hpend : p.isAtEnd = true := by simpa [isAtEnd, hp] using hend
    simp [settle, hp, hc hruns, unwind?, hpend, finish]

end Chain

inductive Round {ω : Type} [World ω] : Phase ω → Phase ω → Prop where
  | halt {left : Nat} {e : Engine ω} (held : e.isHeld = true) :
      Round (.running left e) (.resting e)
  | leave {left : Nat} {e : Engine ω} {c : Chain} (free : e.isHeld = false)
      (runs : e.chain.script?.isSome = true) (ended : e.chain.isAtEnd = true)
      (leaves : e.chain.leave? = some c) :
      Round (.running left e) (.running left (e.withChain c))
  | finish {left : Nat} {e : Engine ω} (free : e.isHeld = false) (ended : e.chain.isAtEnd = true)
      (alone : e.chain.script?.isSome = true → e.chain.callers = []) :
      Round (.running left e) (.running left (e.withChain e.chain.finish))
  | yield {e : Engine ω} {p : Position} {i : Instruction} (free : e.isHeld = false)
      (stands : e.chain.position = some p) (next : p.instruction? = some i) :
      Round (.running 0 e) (.resting (e.yield p i))
  | step {left : Nat} {e e' : Engine ω} {p : Position} {i : Instruction} (free : e.isHeld = false)
      (stands : e.chain.position = some p) (next : p.instruction? = some i)
      (ran : e.step p i = .ok e') :
      Round (.running (left + 1) e) (.running left e')

abbrev Rounds {ω : Type} [World ω] : Phase ω → Phase ω → Prop := Relation.ReflTransGen Round

namespace Engine

variable {ω : Type}

theorem isRunning_of_free {e : Engine ω} (h : e.isHeld = false) : e.chain.isRunning = true := by
  simp only [isHeld, Bool.or_eq_false_iff, Bool.not_eq_false'] at h
  exact h.1.1

theorem paused_of_free {e : Engine ω} (h : e.isHeld = false) : e.chain.paused = false := by
  simp only [isHeld, Bool.or_eq_false_iff] at h
  exact h.1.2

theorem wait_of_free {e : Engine ω} (h : e.isHeld = false) : e.chain.wait = none := by
  simp only [isHeld, Bool.or_eq_false_iff] at h
  exact Option.not_isSome_iff_eq_none.mp (by simp [h.2])

theorem instruction_or_end (e : Engine ω) :
    (∃ p i, e.chain.position = some p ∧ p.instruction? = some i) ∨ e.chain.isAtEnd = true := by
  cases hp : e.chain.position with
  | none => exact Or.inr (by simp [Chain.isAtEnd, hp])
  | some p =>
    cases hend : p.isAtEnd with
    | true => exact Or.inr (by simp [Chain.isAtEnd, hp, hend])
    | false =>
      obtain ⟨i, hi⟩ := Position.isAtEnd_eq_false_iff.mp hend
      exact Or.inl ⟨p, i, rfl, hi⟩

theorem isHeld_leave {e : Engine ω} {c : Chain} (h : e.isHeld = false)
    (hleave : e.chain.leave? = some c) : (e.withChain c).isHeld = false := by
  obtain ⟨caller, callers, -, rfl⟩ := Chain.leave?_eq_some.mp hleave
  simp [isHeld, Chain.standingAt, isRunning_of_free h, paused_of_free h, wait_of_free h]

theorem isHeld_goBack {e : Engine ω} (h : e.isHeld = false) :
    (e.withChain e.chain.goBack).isHeld = false := by
  unfold Chain.goBack
  cases hleave : e.chain.leave? with
  | some c => exact isHeld_leave h hleave
  | none => simp [isHeld, isRunning_of_free h, paused_of_free h, wait_of_free h]

theorem isHeld_finish (e : Engine ω) : (e.withChain e.chain.finish).isHeld = true := rfl

theorem ready_of_held {e : Engine ω} (h : e.isHeld = true) : e.ready = (e, none) := by
  simp only [ready, h, if_true]

theorem ready_of_inside {e : Engine ω} {p : Position} {i : Instruction} (h : e.isHeld = false)
    (hp : e.chain.position = some p) (hi : p.instruction? = some i) :
    e.ready = (e, some (p, i)) := by
  simp [ready, h, Chain.settle_of_inside hp hi, hp, hi]

theorem ready_leave {e : Engine ω} {c : Chain} (h : e.isHeld = false)
    (hruns : e.chain.script?.isSome = true) (hend : e.chain.isAtEnd = true)
    (hleave : e.chain.leave? = some c) : e.ready = (e.withChain c).ready := by
  simp [ready, h, isHeld_leave h hleave, Chain.settle_leave hruns hend hleave]

theorem ready_finish {e : Engine ω} (h : e.isHeld = false) (hend : e.chain.isAtEnd = true)
    (hc : e.chain.script?.isSome = true → e.chain.callers = []) :
    e.ready = (e.withChain e.chain.finish, none) := by
  simp [ready, h, Chain.settle_finish hend hc, Chain.finish, Chain.position]

@[simp] theorem yield_chain (e : Engine ω) (p : Position) (i : Instruction) :
    (e.yield p i).chain = e.chain := by
  unfold yield
  split <;> rfl

@[simp] theorem yield_scene (e : Engine ω) (p : Position) (i : Instruction) :
    (e.yield p i).scene = e.scene := by
  unfold yield
  split <;> rfl

variable [World ω]

theorem steps_of_ready_none {n : Nat} {e e' : Engine ω} (h : e.ready = (e', none)) :
    e.steps n = .ok e' := by
  cases n <;> simp [steps, h]

theorem steps_of_held {n : Nat} {e : Engine ω} (h : e.isHeld = true) : e.steps n = .ok e :=
  steps_of_ready_none (ready_of_held h)

theorem answer_execute_of_held {e : Engine ω} (h : e.isHeld = true) :
    e.answer .execute = .ok (e, .ok ()) := by
  have hstays : e.execute = .ok e := steps_of_held h
  simp only [answer, succeed, hstays, ok_map]

theorem steps_of_step {n : Nat} {e e' : Engine ω} {p : Position} {i : Instruction}
    (h : e.isHeld = false) (hp : e.chain.position = some p) (hi : p.instruction? = some i)
    (hstep : e.step p i = .ok e') : e.steps (n + 1) = e'.steps n := by
  simp only [steps, ready_of_inside h hp hi, hstep, ok_bind]

/-- A step that leaves the chain held is the last of a run. -/
theorem steps_of_last {n : Nat} {e e' : Engine ω} {p : Position} {i : Instruction}
    (h : e.isHeld = false) (hp : e.chain.position = some p) (hi : p.instruction? = some i)
    (hstep : e.step p i = .ok e') (hheld : e'.isHeld = true) : e.steps (n + 1) = .ok e' := by
  rw [steps_of_step h hp hi hstep, steps_of_held hheld]

theorem steps_congr {n : Nat} {e e' : Engine ω} (h : e.ready = e'.ready) :
    e.steps n = e'.steps n := by
  cases n <;> simp only [steps, h]

end Engine

open Engine

variable {ω : Type} [World ω]

theorem Round.outcome_eq {s t : Phase ω} (h : Round s t) : s.outcome = t.outcome := by
  cases h with
  | halt held => exact steps_of_held held
  | leave free runs ended leaves => exact steps_congr (ready_leave free runs ended leaves)
  | @finish left e free ended alone =>
    exact steps_congr ((ready_finish free ended alone).trans (ready_of_held (isHeld_finish e)).symm)
  | yield free stands next => simp [Phase.outcome, steps, ready_of_inside free stands next]
  | step free stands next ran => exact steps_of_step free stands next ran

theorem Rounds.outcome_eq {s t : Phase ω} (h : Rounds s t) : s.outcome = t.outcome := by
  induction h with
  | refl => rfl
  | tail _ hround ih => exact ih.trans hround.outcome_eq

/-- Without using up a step, an engine comes to where it is held or stands at an instruction. -/
theorem rounds_to_instruction (left : Nat) (e : Engine ω) :
    ∃ e', Rounds (.running left e) (.running left e') ∧
      (e'.isHeld = true ∨ e'.isHeld = false ∧
        ∃ p i, e'.chain.position = some p ∧ p.instruction? = some i) := by
  -- on the callers, of which every script that is left takes one away
  induction hc : e.chain.callers generalizing e with
  | nil =>
    cases h : e.isHeld with
    | true => exact ⟨e, .refl, Or.inl h⟩
    | false =>
      rcases instruction_or_end e with hi | hend
      · exact ⟨e, .refl, Or.inr ⟨h, hi⟩⟩
      · exact ⟨_, .single (.finish h hend fun _ => hc), Or.inl (isHeld_finish e)⟩
  | cons caller callers ih =>
    cases h : e.isHeld with
    | true => exact ⟨e, .refl, Or.inl h⟩
    | false =>
      rcases instruction_or_end e with hi | hend
      · exact ⟨e, .refl, Or.inr ⟨h, hi⟩⟩
      · cases hscript : e.chain.script?.isSome with
        | false =>
          have halone : e.chain.script?.isSome = true → e.chain.callers = [] := by simp [hscript]
          exact ⟨_, .single (.finish h hend halone), Or.inl (isHeld_finish e)⟩
        | true =>
          obtain ⟨c, hleave, hcallers⟩ : ∃ c, e.chain.leave? = some c ∧ c.callers = callers :=
            ⟨_, Chain.leave?_eq_some.mpr ⟨caller, callers, hc, rfl⟩, rfl⟩
          obtain ⟨e', hrounds, he'⟩ := ih (e.withChain c) hcallers
          exact ⟨e', .head (.leave h hscript hend hleave) hrounds, he'⟩

theorem Rounds.rest {s : Phase ω} {e r : Engine ω} (h : Rounds s (.resting e))
    (hout : s.outcome = .ok r) : Rounds s (.resting r) := by
  have he : Except.ok e = (.ok r : Except (Crash ω) (Engine ω)) :=
    (Rounds.outcome_eq h).symm.trans hout
  rw [Except.ok.injEq] at he
  exact he ▸ h

theorem rounds_of_steps {n : Nat} {e r : Engine ω} (h : e.steps n = .ok r) :
    Rounds (.running n e) (.resting r) := by
  induction n generalizing e with
  | zero =>
    obtain ⟨e', hrounds, hheld | ⟨hfree, p, i, hp, hi⟩⟩ := rounds_to_instruction 0 e
    · exact Rounds.rest (hrounds.tail (.halt hheld)) h
    · exact Rounds.rest (hrounds.tail (.yield hfree hp hi)) h
  | succ n ih =>
    obtain ⟨e', hrounds, hheld | ⟨hfree, p, i, hp, hi⟩⟩ := rounds_to_instruction (n + 1) e
    · exact Rounds.rest (hrounds.tail (.halt hheld)) h
    · have hout : e'.steps (n + 1) = .ok r := (Rounds.outcome_eq hrounds).symm.trans h
      simp only [steps, ready_of_inside hfree hp hi, bind_eq_ok] at hout
      obtain ⟨e'', hstep, hrun⟩ := hout
      exact (hrounds.tail (.step hfree hp hi hstep)).trans (ih hrun)

theorem outcome_iff_rounds {s : Phase ω} {r : Engine ω} :
    s.outcome = .ok r ↔ Rounds s (.resting r) := by
  constructor
  · intro h
    cases s with
    | resting e => exact Rounds.rest .refl h
    | running left e => exact rounds_of_steps h
  · intro h
    exact Rounds.outcome_eq h

end Cutscene
