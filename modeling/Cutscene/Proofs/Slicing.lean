import Cutscene.Proofs.Hiding
import Cutscene.Proofs.Interruption

/-! Runs cut into slices. A step limit cuts a run where it stands and the next run goes on from
there, so that slices of some steps come to what one run of all of them does. Only the limit and the
reports of the cuts tell the two apart. -/

namespace Cutscene.Engine

variable {ω : Type}

def withSteps (e : Engine ω) (n : Nat) : Engine ω :=
  { e with options := { e.options with maxSteps := n } }

/-- The engine without its step limit and the reports of yields. -/
def unguarded (e : Engine ω) : Engine ω :=
  { e with
    options := { e.options with maxSteps := 0 }
    diagnostics := (e.diagnostics.toList.filter (·.code ≠ Cause.stepsCode)).toArray }

/-- Runs so many slices, one after the other. -/
def executeTimes [World ω] : Nat → Engine ω → Except (Crash ω) (Engine ω)
  | 0, e => .ok e
  | k + 1, e => do executeTimes k (← e.execute)

section Unguarded

variable (e : Engine ω)

@[simp] theorem unguarded_withSteps (n : Nat) : (e.withSteps n).unguarded = e.unguarded := rfl

@[simp] theorem unguarded_chain : e.unguarded.chain = e.chain := rfl

@[simp] theorem unguarded_withChain (c : Chain) :
    (e.withChain c).unguarded = e.unguarded.withChain c := rfl

@[simp] theorem unguarded_advance : e.advance.unguarded = e.unguarded.advance := rfl

@[simp] theorem unguarded_unguarded : e.unguarded.unguarded = e.unguarded := by
  simp [unguarded]

theorem unguarded_observe (event : Event) :
    (e.observe event).unguarded = e.unguarded.observe event := by
  have hobserved : e.unguarded.observed = e.observed := rfl
  by_cases h : e.observed = true
  · simp only [observe, hobserved, h, if_true]
    rfl
  · simp only [observe, hobserved, h]
    rfl

theorem unguarded_announce : e.announce.unguarded = e.unguarded.announce := by
  unfold announce
  rw [unguarded_chain]
  cases e.chain.script? with
  | none => rfl
  | some s => exact unguarded_observe e _

theorem unguarded_report (f : Fault) :
    (e.unguarded.report f).unguarded = (e.report f).unguarded := by
  simp [unguarded, report, List.filter_append]

theorem unguarded_reportLines :
    e.unguarded.reportLines.unguarded = e.reportLines.unguarded := by
  simp [reportLines_eq, unguarded, List.filter_append]

theorem unguarded_skipFaulty (file : String) (call : Call) (f : Fault) :
    (e.unguarded.skipFaulty file call f).unguarded = (e.skipFaulty file call f).unguarded := by
  simp only [skipFaulty, reportAt, unguarded_advance, unguarded_report]

theorem unguarded_follow (file : String) (call : Call) (course : Except Fault Course) :
    (e.unguarded.follow file call course).unguarded = (e.follow file call course).unguarded := by
  have hlines := unguarded_reportLines e
  have hskip : ∀ f, (e.unguarded.reportLines.skipFaulty file call f).unguarded =
      (e.reportLines.skipFaulty file call f).unguarded := by
    intro f
    rw [← unguarded_skipFaulty, hlines, unguarded_skipFaulty]
  cases course with
  | error f => exact hskip f
  | ok course =>
    cases course with
    | next => simp only [follow, unguarded_advance, hlines]
    | moved => exact hlines
    | entered => simp only [follow, unguarded_announce, hlines]
    | parked => exact hlines
    | stalled => exact hskip _

theorem unguarded_yield (p : Position) (i : Instruction) :
    (e.yield p i).unguarded = e.unguarded := by
  unfold yield
  split
  · rfl
  · simp [unguarded, report, Fault.code, Cause.code]

end Unguarded

variable [World ω]

omit [World ω] in
theorem hides_unguarded : Hides (unguarded (ω := ω)) where
  table _ := rfl
  maxDepth _ := rfl
  chain _ := rfl
  random _ := rfl
  world _ := rfl
  cache _ := rfl
  withChain _ _ := rfl
  withWorld _ _ := rfl
  withCache _ _ := rfl
  withRandom _ _ := rfl

theorem dispatch_unguarded (e : Engine ω) (file : String) (call : Call) :
    (e.unguarded.dispatch file call).map unguarded = (e.dispatch file call).map unguarded := by
  have htable : e.unguarded.table = e.table := rfl
  have hview : e.unguarded.view call = e.view call := rfl
  rw [dispatch_eq, dispatch_eq, htable]
  cases e.table.resolve call with
  | error cause => simp only [ok_map, unguarded_skipFaulty]
  | ok command =>
    simp only [hview]
    cases command.handler (e.view call) with
    | error f => simp only [ok_map, unguarded_follow]
    | ok action =>
      simp only [hides_unguarded.act]
      cases e.act action with
      | error crash => rfl
      | ok acted => simp [unguarded_follow]

theorem step_unguarded (e : Engine ω) (p : Position) (i : Instruction) :
    (e.unguarded.step p i).map unguarded = (e.step p i).map unguarded := by
  cases i with
  | marker name literal line =>
    simp only [step, hides_unguarded.pass]
    cases e.pass name with
    | error crash => rfl
    | ok passed =>
      simp only [ok_map, ok_bind, pure, Except.pure, unguarded_advance, unguarded_unguarded]
  | call c => simp only [step, ← unguarded_observe, dispatch_unguarded]

omit [World ω] in
/-- An engine that is made ready is held, or it stands at the instruction that is next; either way
it is ready. -/
theorem ready_cases (e : Engine ω) :
    (∃ e', e.ready = (e', none) ∧ e'.ready = (e', none)) ∨
      ∃ e' p i, e.ready = (e', some (p, i)) ∧ e'.ready = (e', some (p, i)) := by
  induction hc : e.chain.callers generalizing e with
  | nil =>
    cases hheld : e.isHeld with
    | true => exact Or.inl ⟨e, ready_of_held hheld, ready_of_held hheld⟩
    | false =>
      rcases instruction_or_end e with ⟨p, i, hp, hi⟩ | hend
      · have hready := ready_of_inside hheld hp hi
        exact Or.inr ⟨e, p, i, hready, hready⟩
      · exact Or.inl ⟨_, ready_finish hheld hend fun _ => hc, ready_of_held (isHeld_finish e)⟩
  | cons caller callers ih =>
    cases hheld : e.isHeld with
    | true => exact Or.inl ⟨e, ready_of_held hheld, ready_of_held hheld⟩
    | false =>
      rcases instruction_or_end e with ⟨p, i, hp, hi⟩ | hend
      · have hready := ready_of_inside hheld hp hi
        exact Or.inr ⟨e, p, i, hready, hready⟩
      · cases hruns : e.chain.script?.isSome with
        | false =>
          have halone : e.chain.script?.isSome = true → e.chain.callers = [] := by simp [hruns]
          exact Or.inl ⟨_, ready_finish hheld hend halone, ready_of_held (isHeld_finish e)⟩
        | true =>
          have hleave := Chain.leave?_eq_some.mpr ⟨caller, callers, hc, rfl⟩
          rw [ready_leave hheld hruns hend hleave]
          exact ih _ rfl

omit [World ω] in
theorem bind_unguarded {r r' : Except (Crash ω) (Engine ω)}
    {run : Engine ω → Except (Crash ω) (Engine ω)}
    (hrun : ∀ e, (run e.unguarded).map unguarded = (run e).map unguarded)
    (h : r.map unguarded = r'.map unguarded) :
    (r >>= run).map unguarded = (r' >>= run).map unguarded := by
  cases r with
  | error crash =>
    cases r' with
    | error crash' =>
      obtain rfl := Except.error.inj h
      rfl
    | ok e' => cases h
  | ok e =>
    cases r' with
    | error crash' => cases h
    | ok e' =>
      have he : e.unguarded = e'.unguarded := Except.ok.inj h
      rw [ok_bind, ok_bind, ← hrun e, ← hrun e', he]

/-- What a run of so many steps comes to does not depend on the limit and on earlier yields. -/
theorem steps_unguarded (n : Nat) (e : Engine ω) :
    (e.unguarded.steps n).map unguarded = (e.steps n).map unguarded := by
  induction n generalizing e with
  | zero =>
    rcases ready_cases e with ⟨e', hready, -⟩ | ⟨e', p, i, hready, -⟩
    · simp [steps, hides_unguarded.ready, hready]
    · simp [steps, hides_unguarded.ready, hready, unguarded_yield]
  | succ n ih =>
    rcases ready_cases e with ⟨e', hready, -⟩ | ⟨e', p, i, hready, -⟩
    · simp [steps, hides_unguarded.ready, hready]
    · simp only [steps, hides_unguarded.ready, hready]
      exact bind_unguarded ih (step_unguarded e' p i)

/-- A run may be cut after any number of steps. -/
theorem steps_add (m n : Nat) (e : Engine ω) :
    (e.steps (m + n)).map unguarded = (e.steps m >>= steps n).map unguarded := by
  induction m generalizing e with
  | zero =>
    rw [Nat.zero_add]
    rcases ready_cases e with ⟨e', hready, hready'⟩ | ⟨e', p, i, hready, hready'⟩
    · rw [steps_of_ready_none hready, steps_of_ready_none hready, ok_bind,
        steps_of_ready_none hready']
    · have hyield : e.steps 0 = .ok (e'.yield p i) := by simp only [steps, hready]
      -- the yield is reported and no more, so the next run finds the engine where it stood
      rw [hyield, ok_bind, ← steps_unguarded n (e'.yield p i), unguarded_yield, steps_unguarded,
        steps_congr (hready'.trans hready.symm)]
  | succ m ih =>
    rw [Nat.succ_add]
    rcases ready_cases e with ⟨e', hready, hready'⟩ | ⟨e', p, i, hready, -⟩
    · rw [steps_of_ready_none hready, steps_of_ready_none hready, ok_bind,
        steps_of_ready_none hready']
    · simp only [steps, hready]
      cases e'.step p i with
      | error crash => rfl
      | ok e'' => exact ih e''

theorem options_of_execute {e e' : Engine ω} (h : e.execute = .ok e') : e'.options = e.options :=
  (Rounds.keeps (rounds_of_steps h)).options

theorem executeTimes_succ (k : Nat) (e : Engine ω) :
    (executeTimes (k + 1) e).map unguarded =
      (e.steps ((k + 1) * e.options.maxSteps)).map unguarded := by
  induction k generalizing e with
  | zero =>
    rw [Nat.zero_add, Nat.one_mul, executeTimes, execute]
    cases e.steps e.options.maxSteps <;> rfl
  | succ k ih =>
    have hsplit : (k + 1 + 1) * e.options.maxSteps =
        e.options.maxSteps + (k + 1) * e.options.maxSteps := by
      rw [Nat.succ_mul, Nat.add_comm]
    rw [hsplit, steps_add, executeTimes]
    cases hrun : e.execute with
    | error crash =>
      rw [execute] at hrun
      rw [hrun]
      rfl
    | ok e' =>
      have hnext := ih e'
      rw [options_of_execute hrun] at hnext
      rw [execute] at hrun
      rw [hrun, ok_bind, ok_bind, hnext]

/-- Slices of `n` steps come to what one run of all their steps does, be it an engine or a crash:
but for the limit and the reports of yields the engines are equal. -/
theorem slices_transparent (e : Engine ω) {k n : Nat} (hk : 1 ≤ k) :
    (executeTimes k (e.withSteps n)).map unguarded =
      (e.withSteps (k * n)).execute.map unguarded := by
  obtain ⟨k, rfl⟩ := Nat.exists_eq_add_of_le' hk
  rw [executeTimes_succ, execute, ← steps_unguarded _ (e.withSteps n), unguarded_withSteps,
    ← unguarded_withSteps e ((k + 1) * n), steps_unguarded]
  rfl

end Cutscene.Engine

namespace Cutscene.Rehearsal

open Engine

def setOut : Engine Recording := (fresh table {} scene).withChain (({} : Chain).enter yielded)

def slicedOrWhole : Except (Crash Recording) (Engine Recording × Engine Recording) := do
  let sliced ← executeTimes 3 (setOut.withSteps 1)
  let whole ← (setOut.withSteps (3 * 1)).execute
  return (sliced, whole)

/-- Three errands, one at a time and all at once; only the slices report a yield. -/
theorem errands_sliced : 1 ≤ 3 ∧ ∃ sliced whole : Engine Recording,
    executeTimes 3 (setOut.withSteps 1) = .ok sliced ∧
    (setOut.withSteps (3 * 1)).execute = .ok whole ∧
    (sliced.diagnostics.size = 1 ∧ whole.diagnostics.size = 0) ∧
    whole.scene.world.vars = [("a", 1), ("b", 1), ("c", 1)] ∧
    sliced.unguarded = whole.unguarded := by
  obtain ⟨⟨sliced, whole⟩, hrun, hglance⟩ := exists_ok (r := slicedOrWhole)
    (f := fun (sliced, whole) =>
      (sliced.diagnostics.size, whole.diagnostics.size, whole.scene.world.vars))
    (b := (1, 0, [("a", 1), ("b", 1), ("c", 1)])) (by decide +kernel)
  obtain ⟨sliced', hsliced, hrun⟩ := bind_eq_ok.mp hrun
  obtain ⟨whole', hwhole, hrun⟩ := bind_eq_ok.mp hrun
  cases hrun
  simp only [Prod.mk.injEq] at hglance
  obtain ⟨hsome, hnone, hvars⟩ := hglance
  have hk : 1 ≤ 3 := by decide
  have hsame := slices_transparent setOut (n := 1) hk
  rw [hsliced, hwhole, ok_map, ok_map] at hsame
  exact ⟨hk, sliced, whole, hsliced, hwhole, ⟨hsome, hnone⟩, hvars, Except.ok.inj hsame⟩

end Cutscene.Rehearsal
