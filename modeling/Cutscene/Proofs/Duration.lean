import Cutscene.Proofs.Nesting

/-! How long a run lasts. To leave a script takes a round but uses up no step. Yet every caller that
a script goes back to was parked before the run or by one of its steps, so the steps and the callers
together bound the rounds of a run, whatever the scripts do. -/

namespace Cutscene

variable {ω : Type} [World ω]

/-- What makes an engine that waits for nothing break down under a call or a marker: the world does,
or a label has been passed as often as can be counted. -/
inductive Overtaxes (e : Engine ω) : Crash ω → Prop where
  | effect {effect : Effect} {crash : Crash ω}
      (refuses : World.perform e.scene.world effect = .error crash) : Overtaxes e crash
  | talk {first last : Int32} (refuses : World.talkLines? e.scene.world first last = none) :
      Overtaxes e ⟨.talkRange first last, e.scene.world⟩
  | visits {label : String} (full : e.chain.canCount label = false) :
      Overtaxes e ⟨.visits (e.chain.hereKey label), e.scene.world⟩

namespace Phase

/-- The instruction that the next round runs, if it runs one. -/
def next? : Phase ω → Option Instruction
  | resting _ => none
  | running 0 _ => none
  | running (_ + 1) e => if e.isHeld then none else e.chain.instruction?

def left : Phase ω → Nat
  | resting _ => 0
  | running left _ => left

omit [World ω] in
@[simp] theorem left_resting (e : Engine ω) : (resting e).left = 0 := rfl

omit [World ω] in
@[simp] theorem left_running (left : Nat) (e : Engine ω) : (running left e).left = left := rfl

/-- A bound of the rounds that are left. A step counts twice, as it may park a caller; a chain that
runs has to be ended, and an engine to come to rest. -/
def effort : Phase ω → Nat
  | resting _ => 0
  | running left e => 2 * left + e.chain.depth + if e.chain.isRunning then 2 else 1

/-- The next round runs an instruction under which the engine breaks down. -/
inductive Breaks : Phase ω → Crash ω → Prop where
  | step {left : Nat} {e : Engine ω} {p : Position} {i : Instruction} {crash : Crash ω}
      (free : e.isHeld = false) (stands : e.chain.position = some p)
      (next : p.instruction? = some i) (breaks : e.step p i = .error crash)
      (overtaxed : Overtaxes e crash) : Breaks (.running (left + 1) e) crash

end Phase

/-- So many rounds lead from one phase to another, and these instructions are run in them. -/
inductive Lasts (s : Phase ω) : Nat → List Instruction → Phase ω → Prop where
  | start : Lasts s 0 [] s
  | round {n : Nat} {ran : List Instruction} {t u : Phase ω} (before : Lasts s n ran t)
      (round : Round t u) : Lasts s (n + 1) (ran ++ t.next?.toList) u

/-- Why an engine rests after a run of these instructions: its chain has ended, is paused or waits,
or so many steps are used up and it stands at the instruction to begin with next time. -/
inductive Engine.Rests (limit : Nat) (ran : List Instruction) (e : Engine ω) : Prop where
  | ended (idle : e.chain.isRunning = false)
  | paused (paused : e.chain.paused = true)
  | waiting (waits : e.chain.wait.isSome = true)
  | yielded {p : Position} {i : Instruction} (used : ran.length = limit) (free : e.isHeld = false)
      (stands : e.chain.position = some p) (next : p.instruction? = some i)
      (told : e.hasPending Cause.stepsCode = true)

namespace Engine

variable {e : Engine ω} {crash : Crash ω}

theorem perform_eq_error {effect : Effect} :
    e.perform effect = .error crash ↔ World.perform e.scene.world effect = .error crash := by
  unfold perform
  cases World.perform e.scene.world effect with
  | error crash' => simp
  | ok world => simp

omit [World ω] in
theorem pass_eq_error {label : String} : e.pass label = .error crash ↔
    e.chain.canCount label = false ∧ crash = ⟨.visits (e.chain.hereKey label), e.scene.world⟩ := by
  unfold pass
  cases e.chain.canCount label with
  | true => simp
  | false =>
    simp only [Bool.false_eq_true, if_false, Except.error.injEq, true_and]
    exact eq_comm

theorem overtaxes_of_pass {label : String} (h : e.pass label = .error crash) :
    Overtaxes e crash := by
  obtain ⟨hfull, rfl⟩ := pass_eq_error.mp h
  exact .visits hfull

omit [World ω] in
theorem beginWait_ne_error {wait : Wait} (hfree : e.chain.wait = none) :
    e.beginWait wait ≠ .error crash := by
  rw [beginWait_of_free hfree]
  exact nofun

/-- To show something and then wait breaks down only with the world. -/
theorem overtaxes_of_park {effect : Effect} {wait : Wait} {course : Except Fault Course}
    (hfree : e.chain.wait = none)
    (h : (e.perform effect >>= fun e => e.beginWait wait >>= fun e => pure (e, course)) =
      .error crash) : Overtaxes e crash := by
  rcases bind_eq_error.mp h with hrefused | ⟨e', hperform, h⟩
  · exact .effect (perform_eq_error.mp hrefused)
  · obtain ⟨world, -, rfl⟩ := perform_eq_ok.mp hperform
    rcases bind_eq_error.mp h with hbegun | ⟨parked, -, h⟩
    · exact absurd hbegun (beginWait_ne_error hfree)
    · cases h

theorem overtaxes_of_talk {first last : Int32} (hfree : e.chain.wait = none)
    (h : e.talk first last = .error crash) : Overtaxes e crash := by
  unfold talk at h
  split at h
  · next hlines =>
    obtain rfl := Except.error.inj h
    exact .talk hlines
  · cases h
  · exact overtaxes_of_park hfree h

theorem overtaxes_of_jump {label : String} (h : e.jump label = .error crash) :
    Overtaxes e crash := by
  unfold jump at h
  dsimp only at h
  split at h
  · cases h
  · split at h
    · cases h
    · rcases bind_eq_error.mp h with hpass | ⟨passed, -, h⟩
      · exact overtaxes_of_pass hpass
      · cases h

theorem overtaxes_of_act {action : Action} (hfree : e.chain.wait = none)
    (h : e.act action = .error crash) : Overtaxes e crash := by
  cases action with
  | perform effect wait =>
    cases wait with
    | none =>
      rcases bind_eq_error.mp h with hrefused | ⟨e', -, h⟩
      · exact .effect (perform_eq_error.mp hrefused)
      · cases h
    | some wait => exact overtaxes_of_park hfree h
  | park wait =>
    rcases bind_eq_error.mp h with hbegun | ⟨parked, -, h⟩
    · exact absurd hbegun (beginWait_ne_error hfree)
    · cases h
  | talk first last => exact overtaxes_of_talk hfree h
  | jump label => exact overtaxes_of_jump h
  | _ => cases h

theorem overtaxes_of_observe {event : Event} (h : Overtaxes (e.observe event) crash) :
    Overtaxes e crash := by
  cases h with
  | effect refuses => exact .effect (by simpa using refuses)
  | @talk first last refuses => simpa using Overtaxes.talk (e := e) (by simpa using refuses)
  | @visits label full => simpa using Overtaxes.visits (e := e) (by simpa using full)

theorem overtaxes_of_step {p : Position} {i : Instruction} (hfree : e.chain.wait = none)
    (h : e.step p i = .error crash) : Overtaxes e crash := by
  cases i with
  | marker name literal line =>
    rcases bind_eq_error.mp h with hpass | ⟨passed, -, h⟩
    · exact overtaxes_of_pass hpass
    · cases h
  | call call =>
    simp only [step, dispatch_eq] at h
    split at h
    · cases h
    · split at h
      · cases h
      · rcases bind_eq_error.mp h with hact | ⟨acted, -, h⟩
        · exact overtaxes_of_observe (overtaxes_of_act (by simpa using hfree) hact)
        · cases h

theorem Stride.depth_le {i : Instruction} {c : Chain} (h : e.Stride i c) :
    c.depth ≤ e.chain.depth + 1 := by
  cases h with
  | enter asks room =>
    unfold Chain.enter Chain.depth
    split
    · exact Nat.le_refl _
    · exact Nat.le_succ _
  | goBack asks =>
    have hle := depth_goBack_le e.chain
    omega
  | _ => exact Nat.le_succ _

omit [World ω] in
theorem hasPending_yield (e : Engine ω) (p : Position) (i : Instruction) :
    (e.yield p i).hasPending Cause.stepsCode = true := by
  unfold yield
  split
  · assumption
  · simp [hasPending, report, Fault.code, Cause.code]

end Engine

open Engine

variable {s t : Phase ω} {e e' : Engine ω} {n left : Nat} {ran : List Instruction}

omit [World ω] in
theorem effort_of_runs (h : e.chain.isRunning = true) :
    (Phase.running left e).effort = 2 * left + e.chain.depth + 2 := by
  simp [Phase.effort, h]

omit [World ω] in
theorem effort_le (left : Nat) (e : Engine ω) :
    2 * left + e.chain.depth + 1 ≤ (Phase.running left e).effort ∧
      (Phase.running left e).effort ≤ 2 * left + e.chain.depth + 2 := by
  cases hrun : e.chain.isRunning with
  | true => simp [Phase.effort, hrun]
  | false => simp [Phase.effort, hrun]

theorem Round.effort_lt (h : Round s t) : t.effort < s.effort := by
  cases h with
  | @halt left e held =>
    have hle := (effort_le left e).1
    simp only [Phase.effort] at hle ⊢
    omega
  | @leave left e c free runs ended leaves =>
    have hle := (effort_le left (e.withChain c)).2
    obtain ⟨caller, callers, hc, rfl⟩ := Chain.leave?_eq_some.mp leaves
    rw [effort_of_runs (isRunning_of_free free)]
    simp only [withChain_chain, Chain.depth, hc, List.length_cons] at hle ⊢
    omega
  | @finish left e free ended alone =>
    rw [effort_of_runs (isRunning_of_free free)]
    have hidle : e.chain.finish.isRunning = false := rfl
    have hdepth : e.chain.finish.depth = e.chain.depth := rfl
    simp only [Phase.effort, withChain_chain, hidle, hdepth, Bool.false_eq_true, if_false]
    omega
  | @yield e p i free stands next =>
    have hle := (effort_le 0 e).1
    simp only [Phase.effort] at hle ⊢
    omega
  | @step left e e' p i free stands next ran =>
    have hle := (effort_le left e').2
    have hdepth := (stride_of_step ran).depth_le
    rw [effort_of_runs (isRunning_of_free free)]
    omega

theorem Lasts.effort_le (h : Lasts s n ran t) : n + t.effort ≤ s.effort := by
  induction h with
  | start => omega
  | round before round ih =>
    have hlt := round.effort_lt
    omega

omit [World ω] in
theorem next?_of_held (left : Nat) (h : e.isHeld = true) : (Phase.running left e).next? = none := by
  cases left with
  | zero => rfl
  | succ left => simp [Phase.next?, h]

omit [World ω] in
theorem next?_of_ended (left : Nat) (h : e.chain.isAtEnd = true) :
    (Phase.running left e).next? = none := by
  cases left with
  | zero => rfl
  | succ left =>
    have hnone : e.chain.instruction? = none := by
      cases hp : e.chain.position with
      | none => simp [Chain.instruction?, hp]
      | some p =>
        have hend : p.isAtEnd = true := by simpa [Chain.isAtEnd, hp] using h
        simpa [Chain.instruction?, hp] using Position.isAtEnd_iff.mp hend
    simp [Phase.next?, hnone]

omit [World ω] in
theorem next?_of_inside (left : Nat) {p : Position} {i : Instruction} (hfree : e.isHeld = false)
    (hp : e.chain.position = some p) (hi : p.instruction? = some i) :
    (Phase.running (left + 1) e).next? = some i := by
  simp [Phase.next?, hfree, Chain.instruction?, hp, hi]

/-- A round that goes on uses up a step for the instruction that it runs, if it runs one. -/
theorem Round.steps_used (h : Round s t) :
    s.next?.toList.length ≤ s.left ∧
      ∀ left e, t = .running left e → s.next?.toList.length + left = s.left := by
  cases h with
  | @halt left e held =>
    have hnone := next?_of_held left held
    refine ⟨by simp [hnone], fun left' e' heq => ?_⟩
    simp at heq
  | @leave left e c free runs ended leaves =>
    have hnone := next?_of_ended left ended
    refine ⟨by simp [hnone], fun left' e' heq => ?_⟩
    obtain ⟨rfl, -⟩ := Phase.running.inj heq
    simp [hnone]
  | @finish left e free ended alone =>
    have hnone := next?_of_ended left ended
    refine ⟨by simp [hnone], fun left' e' heq => ?_⟩
    obtain ⟨rfl, -⟩ := Phase.running.inj heq
    simp [hnone]
  | @yield e p i free stands next =>
    have hnone : (Phase.running 0 e).next? = none := rfl
    refine ⟨by simp [hnone], fun left' e' heq => ?_⟩
    simp at heq
  | @step left e e' p i free stands next ran =>
    have hnext := next?_of_inside left free stands next
    refine ⟨by simp [hnext], fun left' e'' heq => ?_⟩
    have hleft : left = left' := (Phase.running.inj heq).1
    rw [hnext, Phase.left_running, hleft]
    exact Nat.add_comm 1 left'

theorem Lasts.steps_used (h : Lasts s n ran t) :
    ran.length + t.left ≤ s.left ∧ ∀ left e, t = .running left e → ran.length + left = s.left := by
  induction h with
  | start => exact ⟨by simp, fun left e heq => by simp [heq]⟩
  | @round n ran t u before round ih =>
    obtain ⟨hle, hgoes⟩ := ih
    obtain ⟨hused, hround⟩ := round.steps_used
    rw [List.length_append]
    cases t with
    | resting e => cases round
    | running left e =>
      have hsum : ran.length + left = s.left := hgoes left e rfl
      refine ⟨?_, fun left' e' heq => ?_⟩
      · cases u with
        | resting e' =>
          simp only [Phase.left_running, Phase.left_resting] at hused ⊢
          omega
        | running left' e' =>
          have hleft := hround left' e' rfl
          simp only [Phase.left_running] at hleft ⊢
          omega
      · have hleft := hround left' e' heq
        rw [Phase.left_running] at hleft
        omega

theorem round_or_breaks (left : Nat) (e : Engine ω) :
    (∃ t, Round (.running left e) t) ∨ ∃ crash, (Phase.running left e).Breaks crash := by
  cases hheld : e.isHeld with
  | true => exact Or.inl ⟨_, .halt hheld⟩
  | false =>
    rcases instruction_or_end e with ⟨p, i, hp, hi⟩ | hend
    · cases left with
      | zero => exact Or.inl ⟨_, .yield hheld hp hi⟩
      | succ left =>
        cases hstep : e.step p i with
        | ok e' => exact Or.inl ⟨_, .step hheld hp hi hstep⟩
        | error crash =>
          have hovertaxed := overtaxes_of_step (wait_of_free hheld) hstep
          exact Or.inr ⟨crash, .step hheld hp hi hstep hovertaxed⟩
    · cases hc : e.chain.callers with
      | nil => exact Or.inl ⟨_, .finish hheld hend fun _ => hc⟩
      | cons caller callers =>
        cases hruns : e.chain.script?.isSome with
        | false => exact Or.inl ⟨_, .finish hheld hend (by simp [hruns])⟩
        | true => exact Or.inl ⟨_, .leave hheld hruns hend
            (Chain.leave?_eq_some.mpr ⟨caller, callers, hc, rfl⟩)⟩

theorem Phase.Breaks.outcome_eq {crash : Crash ω} (h : s.Breaks crash) :
    s.outcome = .error crash := by
  cases h with
  | step free stands next breaks overtaxed =>
    simp [Phase.outcome, steps, ready_of_inside free stands next, breaks]

theorem Lasts.rounds (h : Lasts s n ran t) : Rounds s t := by
  induction h with
  | start => exact .refl
  | round before round ih => exact ih.tail round

theorem lasts_to_end {limit : Nat} {b : Engine ω} (h : Lasts (.running limit b) n ran s) :
    ∃ n' ran' t, Lasts (.running limit b) n' ran' t ∧
      ((∃ e, t = .resting e) ∨ ∃ crash, t.Breaks crash) := by
  -- on the effort that is left
  induction hm : s.effort using Nat.strongRecOn generalizing n ran s with
  | ind m ih =>
    cases s with
    | resting e => exact ⟨n, ran, _, h, Or.inl ⟨e, rfl⟩⟩
    | running left e =>
      rcases round_or_breaks left e with ⟨t, hround⟩ | hbreaks
      · have hlt : t.effort < m := hm ▸ hround.effort_lt
        exact ih _ hlt (h.round hround) rfl
      · exact ⟨n, ran, _, h, Or.inr hbreaks⟩

theorem rests_of_lasts {limit : Nat} {b : Engine ω}
    (h : Lasts (.running limit b) n ran (.resting e)) : e.Rests limit ran := by
  cases h with
  | @round n ran t u before round =>
    cases round with
    | halt held =>
      simp only [isHeld, Bool.or_eq_true, Bool.not_eq_true'] at held
      rcases held with (hidle | hpaused) | hwaits
      · exact .ended hidle
      · exact .paused hpaused
      · exact .waiting hwaits
    | @yield e p i free stands next =>
      have hused : ran.length + 0 = limit := before.steps_used.2 _ _ rfl
      have hheld : (e.yield p i).isHeld = false := by simpa [isHeld] using free
      exact .yielded (by simpa [Phase.next?] using hused) hheld (by simpa using stands) next
        (hasPending_yield e p i)

theorem rests_or_breaks (e : Engine ω) : ∃ n ran s, Lasts (.begun e) n ran s ∧
    ((∃ e', s = .resting e' ∧ e.execute = .ok e' ∧ e'.Rests e.options.maxSteps ran) ∨
      ∃ crash, s.Breaks crash ∧ e.execute = .error crash) := by
  obtain ⟨n, ran, s, h, hend⟩ := lasts_to_end (s := .begun e) .start
  have hout : (Phase.begun e).outcome = s.outcome := Rounds.outcome_eq h.rounds
  rw [Phase.outcome_begun] at hout
  refine ⟨n, ran, s, h, ?_⟩
  rcases hend with ⟨e', rfl⟩ | ⟨crash, hbreaks⟩
  · exact Or.inl ⟨e', rfl, hout, rests_of_lasts h⟩
  · exact Or.inr ⟨crash, hbreaks, hout.trans hbreaks.outcome_eq⟩

theorem overtaxes_of_execute {crash : Crash ω} (h : e.execute = .error crash) :
    ∃ b, Overtaxes b crash := by
  obtain ⟨n, ran, s, -, ⟨e', -, hrest, -⟩ | ⟨crash', hbreaks, hcrash⟩⟩ := rests_or_breaks e
  · rw [h] at hrest
    cases hrest
  · rw [h] at hcrash
    obtain rfl := Except.error.inj hcrash
    cases hbreaks with
    | step free stands next breaks overtaxed => exact ⟨_, overtaxed⟩

/-- An engine that is let run comes to rest within so many rounds and so many instructions, unless it
breaks down under one of these: the world cannot do what is asked of it, or a label has been passed
as often as can be counted. -/
theorem execute_comes_to_rest (e : Engine ω) :
    (∀ n ran s, Lasts (.begun e) n ran s →
      n ≤ 2 * e.options.maxSteps + e.chain.depth + 2 ∧ ran.length ≤ e.options.maxSteps) ∧
    ∃ n ran s, Lasts (.begun e) n ran s ∧
      ((∃ e', s = .resting e' ∧ e.execute = .ok e' ∧ e'.Rests e.options.maxSteps ran) ∨
        ∃ crash, s.Breaks crash ∧ e.execute = .error crash) := by
  refine ⟨fun n ran s h => ?_, rests_or_breaks e⟩
  have heffort := h.effort_le
  have hbegun := (effort_le e.options.maxSteps e).2
  have hused := h.steps_used.1
  simp only [Phase.begun, Phase.left_running] at heffort hused
  exact ⟨by omega, by omega⟩

namespace Rehearsal

def circle : Script := (Script.parse "circle" "@Again:\nGoto @Again;").script

def circling : Engine Recording :=
  (fresh table { maxSteps := 3 } scene).withChain (({} : Chain).enter circle)

theorem circling_comes_to_rest : ∃ n ran e, Lasts (.begun circling) n ran (.resting e) ∧
    n ≤ 8 ∧ ran.length ≤ 3 ∧ circling.execute = .ok e ∧ e.Rests 3 ran := by
  obtain ⟨e', hrun, -⟩ := exists_ok (r := circling.execute) (f := fun _ => ()) (b := ())
    (by decide +kernel)
  obtain ⟨hbound, n, ran, s, h, hend⟩ := execute_comes_to_rest circling
  obtain ⟨hrounds, hran⟩ := hbound n ran s h
  rcases hend with ⟨e, rfl, hrest, hrests⟩ | ⟨crash, -, hbreaks⟩
  · exact ⟨n, ran, e, h, hrounds, hran, hrest, hrests⟩
  · rw [hrun] at hbreaks
    cases hbreaks

/-- All calm, and then two lines are to be said from the last to the first. -/
def outburst : Scene Recording where
  world := { talk := .ofPairs [(1, ⟨"Out with you!", 0⟩)] }
  cache := { read := fun _ => .ok "Message(\"All calm.\");\nTalk(3, 1);" }

/-- The first run is told that its step is used up; when it is let run again, it does not come to
rest. -/
theorem outburst_breaks_down : ∃ (e : Engine Recording) (crash : Crash Recording),
    Reachable .standard { maxSteps := 1 } (.resting e) ∧ e.execute = .error crash ∧
      crash.breakdown = .talkRange 3 1 := by
  obtain ⟨e, hserve, hbreaks⟩ := exists_ok
    (r := serve [.run "outburst" none] (fresh .standard { maxSteps := 1 } outburst))
    (f := fun e => match e.execute with
      | .error crash => some crash.breakdown
      | .ok _ => none)
    (b := some (.talkRange 3 1)) (by decide +kernel)
  refine ⟨e, ?_⟩
  split at hbreaks
  · next crash hexecute =>
    exact ⟨crash, ⟨outburst, rfl, reaches_of_serve hserve⟩, hexecute, Option.some.inj hbreaks⟩
  · cases hbreaks

end Rehearsal

end Cutscene
