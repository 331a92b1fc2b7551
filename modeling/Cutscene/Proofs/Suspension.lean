import Cutscene.Proofs.Soundness

/-! Suspended chains. A chain that waits stays at the call that asked for it, whatever it is asked,
until a request satisfies the wait; then it goes on behind that call. -/

namespace Cutscene

variable {ω : Type} [World ω]

/-- A request that drives the chain: it starts no script, stops nothing and leaves the surroundings
as they are. -/
def Request.drives : Request ω → Bool
  | .execute => true
  | .update _ => true
  | .closeDialog => true
  | .select _ => true
  | .pause => true
  | .resume => true
  | _ => false

/-- The run from a phase comes to the instruction at a position and runs it. -/
def Phase.Runs (s : Phase ω) (p : Position) : Prop :=
  ∃ left e i, Rounds s (.running (left + 1) e) ∧ e.isHeld = false ∧
    e.chain.position = some p ∧ p.instruction? = some i

/-- A chain that waits where another one does, be it paused or not. -/
def Chain.WaitsLike (c' c : Chain) : Prop :=
  ∃ wait paused, c' = { c with wait := some wait, paused }

theorem Chain.WaitsLike.trans {c c' c'' : Chain} (h : c''.WaitsLike c') (h' : c'.WaitsLike c) :
    c''.WaitsLike c := by
  obtain ⟨wait, paused, rfl⟩ := h
  obtain ⟨_, _, rfl⟩ := h'
  exact ⟨wait, paused, rfl⟩

namespace Engine

/-- When a request satisfies a wait: in the frame that finds the clock run out or the activity
ended, with the close of the last dialog, or with a choice. -/
inductive Satisfies (e : Engine ω) : Wait → Request ω → Prop where
  | timeout {remaining elapsed : Int} (ready : e.chain.paused = false)
      (elapses : remaining ≤ elapsed) : Satisfies e (.timer remaining) (.update elapsed)
  | finished {a : Activity} {elapsed : Int} (ready : e.chain.paused = false)
      (ended : World.isFinished e.scene.world a = true) :
      Satisfies e (.activity a) (.update elapsed)
  | closed : Satisfies e .dialog .closeDialog
  | closedLast : Satisfies e (.talk []) .closeDialog
  | chosen {result : String} {index : Int32} : Satisfies e (.selection result) (.select index)

/-- What any other request makes of the engine: it lets the clock run, shows the next line of a
talk, pauses or resumes, or changes nothing. -/
inductive Lingers (e : Engine ω) : Wait → Request ω → Engine ω → Prop where
  | same {wait : Wait} {r : Request ω} : Lingers e wait r e
  | count {remaining elapsed : Int} :
      Lingers e (.timer remaining) (.update elapsed) (e.park (.timer (remaining - elapsed)))
  | nextLine {line : TalkLine} {rest : List TalkLine} {world : ω}
      (shown : World.perform e.scene.world (.dialog line.text line.portrait) = .ok world) :
      Lingers e (.talk (line :: rest)) .closeDialog ((e.withWorld world).park (.talk rest))
  | pause {wait : Wait} : Lingers e wait .pause (e.withChain { e.chain with paused := true })
  | resume {wait : Wait} : Lingers e wait .resume (e.withChain { e.chain with paused := false })

/-- When a request to a suspended chain crashes: a clock leaves the range of 64 bits, or the world
refuses to show a line. -/
inductive Breaks (e : Engine ω) : Wait → Request ω → Crash ω → Prop where
  | clock {remaining elapsed : Int}
      (beyond : Interval.word64.contains (remaining - elapsed) = false) :
      Breaks e (.timer remaining) (.update elapsed) ⟨.clock, e.scene.world⟩
  | dialog {line : TalkLine} {rest : List TalkLine} {crash : Crash ω}
      (refused : World.perform e.scene.world (.dialog line.text line.portrait) = .error crash) :
      Breaks e (.talk (line :: rest)) .closeDialog crash

/-- The engine with the choice of an option written down. -/
def noting (e : Engine ω) : Wait → Request ω → Engine ω
  | .selection result, .select index => e.assign result index
  | _, _ => e

/-- The engine behind the call at a position that it waited for. -/
def resumed (e : Engine ω) (wait : Wait) (r : Request ω) (p : Position) : Engine ω :=
  (e.noting wait r).withChain { e.chain.standingAt p.advanced with wait := none }

/-- How a chain that waits at a position goes on: requests that drive it have left it suspended, and
one more satisfies its wait. -/
inductive Resumes (e : Engine ω) (p : Position) : Phase ω → Prop where
  | satisfied {e' : Engine ω} {wait : Wait} {r : Request ω}
      (reached : ReachesBy (·.drives = true) (.resting e) (.resting e'))
      (suspended : e'.chain.WaitsLike e.chain) (waits : e'.chain.wait = some wait)
      (satisfies : e'.Satisfies wait r)
      (opens : e'.opening r = .ok ⟨.begun (e'.resumed wait r p), .ok ()⟩) :
      Resumes e p (.begun (e'.resumed wait r p))

variable {e e' : Engine ω} {wait : Wait} {r : Request ω} {o : Opening ω} {p : Position}

omit [World ω] in
theorem isHeld_of_wait (hwait : e.chain.wait = some wait) : e.isHeld = true := by
  simp [isHeld, hwait]

omit [World ω] in
theorem park_self (hwait : e.chain.wait = some wait) : e.park wait = e := by
  simp only [park, ← hwait]
  rfl

theorem Lingers.waitsLike (h : e.Lingers wait r e') (hwait : e.chain.wait = some wait) :
    e'.chain.WaitsLike e.chain := by
  cases h with
  | same => exact ⟨wait, e.chain.paused, by rw [← hwait]⟩
  | count => exact ⟨_, e.chain.paused, rfl⟩
  | nextLine shown => exact ⟨_, e.chain.paused, rfl⟩
  | pause => exact ⟨wait, true, by rw [← hwait]; rfl⟩
  | resume => exact ⟨wait, false, by rw [← hwait]; rfl⟩

omit [World ω] in
theorem isHeld_of_waitsLike {c : Chain} (h : e.chain.WaitsLike c) : e.isHeld = true := by
  obtain ⟨wait, paused, heq⟩ := h
  have hwait : e.chain.wait = some wait := congrArg Chain.wait heq
  exact isHeld_of_wait hwait

theorem satisfies_iff_of_poll {elapsed : Int} {wait' : Wait} {ended : Bool}
    (hready : e.chain.paused = false)
    (hpoll : wait.poll e.scene.world elapsed = .ok (wait', ended)) :
    e.Satisfies wait (.update elapsed) ↔ ended = true := by
  cases wait with
  | timer remaining =>
    simp only [Wait.poll] at hpoll
    split at hpoll
    · obtain ⟨rfl, rfl⟩ := Prod.mk.inj (Except.ok.inj hpoll)
      rw [decide_eq_true_iff]
      constructor
      · intro hsat
        cases hsat with
        | timeout ready elapses => omega
      · intro hover
        exact .timeout hready (by omega)
    · cases hpoll
  | activity a =>
    obtain ⟨rfl, rfl⟩ := Prod.mk.inj (Except.ok.inj hpoll)
    constructor
    · intro hsat
      cases hsat with
      | finished ready ended => exact ended
    · exact .finished hready
  | _ =>
    obtain ⟨rfl, rfl⟩ := Prod.mk.inj (Except.ok.inj hpoll)
    exact ⟨nofun, nofun⟩

theorem lingers_of_poll {elapsed : Int} {wait' : Wait} {ended : Bool}
    (hwait : e.chain.wait = some wait)
    (hpoll : wait.poll e.scene.world elapsed = .ok (wait', ended)) :
    e.Lingers wait (.update elapsed) (e.park wait') := by
  cases wait with
  | timer remaining =>
    simp only [Wait.poll] at hpoll
    split at hpoll
    · obtain ⟨rfl, -⟩ := Prod.mk.inj (Except.ok.inj hpoll)
      exact .count
    · cases hpoll
  | _ =>
    obtain ⟨rfl, -⟩ := Prod.mk.inj (Except.ok.inj hpoll)
    rw [park_self hwait]
    exact .same

theorem lingers_of_unsatisfied (hwait : e.chain.wait = some wait)
    (hrun : e.chain.isRunning = true) (hdrives : r.drives = true) (hnot : ¬ e.Satisfies wait r)
    (hopen : e.opening r = .ok o) : e.Lingers wait r o.phase.engine := by
  cases opened_of_opening hopen with
  | execute => exact .same
  | updateStill still => exact .same
  | updateFree ready free =>
    rw [hwait] at free
    cases free
  | updateWaiting ready waits polled =>
    obtain rfl := Option.some.inj (hwait.symm.trans waits)
    exact lingers_of_poll hwait polled
  | updateEnded ready waits polled =>
    obtain rfl := Option.some.inj (hwait.symm.trans waits)
    have hready : e.chain.paused = false := (Bool.or_eq_false_iff.mp ready).2
    exact absurd ((satisfies_iff_of_poll hready polled).mpr rfl) hnot
  | nextLine waits performed =>
    obtain rfl := Option.some.inj (hwait.symm.trans waits)
    exact .nextLine performed
  | closeTalk waits =>
    obtain rfl := Option.some.inj (hwait.symm.trans waits)
    exact absurd .closedLast hnot
  | closeDialog waits =>
    obtain rfl := Option.some.inj (hwait.symm.trans waits)
    exact absurd .closed hnot
  | noDialog waits talks => exact .same
  | select waits =>
    obtain rfl := Option.some.inj (hwait.symm.trans waits)
    exact absurd .chosen hnot
  | noSelection waits => exact .same
  | pause runs => exact .pause
  | pauseIdle idle =>
    rw [hrun] at idle
    cases idle
  | resume => exact .resume
  | _ => cases hdrives

omit [World ω] in
@[simp] theorem goesOn_park (e : Engine ω) (wait : Wait) : (e.park wait).goesOn = e.goesOn := rfl

theorem noting_chain (e : Engine ω) (wait : Wait) (r : Request ω) :
    (e.noting wait r).chain = e.chain := by
  unfold noting
  split
  · rfl
  · rfl

theorem noting_update (e : Engine ω) (wait : Wait) (elapsed : Int) :
    e.noting wait (.update elapsed) = e := by
  cases wait <;> rfl

theorem goesOn_noting (hp : e.chain.position = some p) :
    (e.noting wait r).goesOn = ⟨.begun (e.resumed wait r p), .ok ()⟩ := by
  have hadvanced : ({ e.chain with wait := none } : Chain).advance =
      { e.chain.standingAt p.advanced with wait := none } :=
    Chain.advance_eq (c := { e.chain with wait := none }) hp
  rw [goesOn, resumed, noting_chain, hadvanced]

theorem resumed_of_satisfied (hwait : e.chain.wait = some wait)
    (hrun : e.chain.isRunning = true) (hp : e.chain.position = some p)
    (hsat : e.Satisfies wait r) (hopen : e.opening r = .ok o) :
    o = ⟨.begun (e.resumed wait r p), .ok ()⟩ := by
  rw [← goesOn_noting hp]
  cases opened_of_opening hopen with
  | updateStill still =>
    cases hsat with
    | timeout ready elapses => simp [hrun, ready] at still
    | finished ready ended => simp [hrun, ready] at still
  | updateFree ready free =>
    rw [hwait] at free
    cases free
  | updateWaiting ready waits polled =>
    obtain rfl := Option.some.inj (hwait.symm.trans waits)
    have hready : e.chain.paused = false := (Bool.or_eq_false_iff.mp ready).2
    cases (satisfies_iff_of_poll hready polled).mp hsat
  | updateEnded ready waits polled => rw [goesOn_park, noting_update]
  | nextLine waits performed =>
    obtain rfl := Option.some.inj (hwait.symm.trans waits)
    cases hsat
  | closeTalk waits =>
    obtain rfl := Option.some.inj (hwait.symm.trans waits)
    rfl
  | closeDialog waits =>
    obtain rfl := Option.some.inj (hwait.symm.trans waits)
    rfl
  | noDialog waits talks =>
    cases hsat with
    | closed => exact absurd hwait waits
    | closedLast => exact absurd hwait (talks [])
  | select waits =>
    obtain rfl := Option.some.inj (hwait.symm.trans waits)
    rfl
  | noSelection waits =>
    cases hsat with
    | chosen => exact absurd hwait (waits _)
  | _ => cases hsat

theorem breaks_of_crash {crash : Crash ω} (hwait : e.chain.wait = some wait)
    (hdrives : r.drives = true) (hcrash : e.opening r = .error crash) : e.Breaks wait r crash := by
  -- only two requests do more than look: one counts the time down, one shows the next line
  cases r with
  | update elapsed =>
    simp only [opening, hwait] at hcrash
    split at hcrash
    · cases hcrash
    · cases wait with
      | timer remaining =>
        simp only [Wait.poll] at hcrash
        split at hcrash
        · cases hcrash
        · next hbeyond =>
          obtain rfl := Except.error.inj hcrash
          exact .clock (Bool.eq_false_iff.mpr hbeyond)
      | _ => cases hcrash
  | closeDialog =>
    simp only [opening, hwait] at hcrash
    cases wait with
    | talk lines =>
      cases lines with
      | nil => cases hcrash
      | cons line rest =>
        cases hshow : World.perform e.scene.world (.dialog line.text line.portrait) with
        | ok world =>
          simp only [perform, hshow, ok_map, ok_bind] at hcrash
          cases hcrash
        | error crash' =>
          simp only [perform, hshow, error_map, error_bind] at hcrash
          obtain rfl := Except.error.inj hcrash
          exact .dialog hshow
    | _ => cases hcrash
  | select index =>
    simp only [opening, hwait] at hcrash
    cases wait with
    | _ => cases hcrash
  | execute => cases hcrash
  | pause => cases hcrash
  | resume => cases hcrash
  | _ => cases hdrives

end Engine

open Engine

variable {s t : Phase ω}

theorem engine_of_held (hheld : s.engine.isHeld = true) (h : Rounds s t) :
    t.engine = s.engine := by
  induction h with
  | refl => rfl
  | tail _ hround ih =>
    rw [← ih] at hheld ⊢
    cases hround with
    | halt held => rfl
    | leave free runs ended leaves => simp [Phase.engine, free] at hheld
    | finish free ended alone => simp [Phase.engine, free] at hheld
    | yield free stands next => simp [Phase.engine, free] at hheld
    | step free stands next ran => simp [Phase.engine, free] at hheld

/-- A chain that is held runs nothing. -/
theorem not_runs_of_held (hheld : s.engine.isHeld = true) (p : Position) : ¬ s.Runs p := by
  rintro ⟨left, e, i, hrounds, hfree, -, -⟩
  have heq : e = s.engine := engine_of_held hheld hrounds
  rw [heq, hheld] at hfree
  cases hfree

theorem outcome_of_held (hheld : s.engine.isHeld = true) : s.outcome = .ok s.engine := by
  cases s with
  | resting e => rfl
  | running left e => exact steps_of_held hheld

/-- Requests that drive a suspended chain leave it suspended until one satisfies its wait. -/
theorem waitsLike_or_resumes {e : Engine ω} {p : Position}
    (hrun : e.chain.isRunning = true) (hp : e.chain.position = some p)
    (hwait : e.chain.wait.isSome = true) (h : ReachesBy (·.drives = true) (.resting e) s) :
    s.chain.WaitsLike e.chain ∨ ∃ t, e.Resumes p t ∧ ReachesBy (·.drives = true) t s := by
  -- by induction on the turns: once the chain has gone on, later turns only add to what follows
  induction h with
  | refl =>
    obtain ⟨wait, hwait⟩ := Option.isSome_iff_exists.mp hwait
    exact Or.inl ⟨wait, e.chain.paused, by rw [Phase.chain_resting, ← hwait]⟩
  | @tail s t hreach hturn ih =>
    rcases ih with hlike | ⟨u, hresumes, hafter⟩
    · obtain ⟨asked, hdrives, hturn'⟩ := hturn
      cases hturn' with
      | round hround =>
        have hheld : s.engine.isHeld = true := isHeld_of_waitsLike hlike
        have hsame := engine_of_held hheld (.single hround)
        exact Or.inl (by rwa [Phase.chain, hsame])
      | @request e' r o hopen =>
        obtain ⟨wait, paused, heq⟩ := hlike
        have hwaits : e'.chain.wait = some wait := congrArg Chain.wait heq
        have hstands : e'.chain.position = some p := (congrArg Chain.position heq).trans hp
        have hrun' : e'.chain.isRunning = true := (congrArg Chain.isRunning heq).trans hrun
        have hlike : e'.chain.WaitsLike e.chain := ⟨wait, paused, heq⟩
        by_cases hsat : e'.Satisfies wait r
        · obtain rfl := resumed_of_satisfied hwaits hrun' hstands hsat hopen
          exact Or.inr ⟨_, .satisfied hreach hlike hwaits hsat hopen, .refl⟩
        · have hlingers := lingers_of_unsatisfied hwaits hrun' (hdrives r rfl) hsat hopen
          exact Or.inl ((hlingers.waitsLike hwaits).trans hlike)
    · exact Or.inr ⟨u, hresumes, hafter.tail hturn⟩

/-- A request that does not satisfy the wait of a suspended chain leaves it suspended and runs
nothing; one that does lets it go on behind the call, which is thus run and answered once. -/
theorem waits_until_satisfied {table : CommandTable} {options : Options} {e : Engine ω}
    {wait : Wait} (h : Reachable table options (.resting e)) (hwait : e.chain.wait = some wait) :
    ∃ p call, e.chain.position = some p ∧ p.instruction? = some (.call call) ∧
      (∀ r, r.drives = true →
        (∀ crash, e.opening r = .error crash → e.Breaks wait r crash) ∧
        ∀ o, e.opening r = .ok o →
          (¬ e.Satisfies wait r →
            e.Lingers wait r o.phase.engine ∧ e.answer r = .ok (o.phase.engine, o.result) ∧
              ∀ q, ¬ o.phase.Runs q) ∧
          (e.Satisfies wait r → o = ⟨.begun (e.resumed wait r p), .ok ()⟩)) ∧
      ∀ s, ReachesBy (·.drives = true) (.resting e) s →
        s.chain.WaitsLike e.chain ∨ ∃ t, e.Resumes p t ∧ ReachesBy (·.drives = true) t s := by
  have hsound : e.chain.Sound options.maxDepth 0 := h.sound
  have hsome : e.chain.wait.isSome = true := by rw [hwait, Option.isSome_some]
  obtain ⟨call, hcall⟩ := hsound.waits_at_call hsome
  obtain ⟨p, hp, hi⟩ := Option.bind_eq_some_iff.mp hcall
  have hrun := hsound.isRunning hp
  refine ⟨p, call, hp, hi, fun r hdrives => ⟨fun crash => breaks_of_crash hwait hdrives, ?_⟩,
    fun s => waitsLike_or_resumes hrun hp hsome⟩
  intro o hopen
  refine ⟨fun hnot => ?_, fun hsat => resumed_of_satisfied hwait hrun hp hsat hopen⟩
  have hlingers := lingers_of_unsatisfied hwait hrun hdrives hnot hopen
  have hheld := isHeld_of_waitsLike (hlingers.waitsLike hwait)
  refine ⟨hlingers, ?_, not_runs_of_held hheld⟩
  rw [answer_eq_opening, hopen, ok_bind, Opening.answer, outcome_of_held hheld, ok_map]

namespace Rehearsal

def naps : Script := (Script.parse "naps" "Sleep(5);\nSleep(7);").script

/-- Two frames that may follow the first nap: a short one and one that ends it. -/
def dozing : Except (Crash Recording)
    (Engine Recording × Opening Recording × Opening Recording) := do
  let e ← serve [.runContent "naps" "Sleep(5);\nSleep(7);" none] (fresh table {} scene)
  let short ← e.opening (.update 3)
  let long ← e.opening (.update 6)
  return (e, short, long)

theorem first_nap_waits : ∃ (e : Engine Recording) (short long : Opening Recording),
    (Reachable table {} (.resting e) ∧ e.chain.wait = some (.timer 5)) ∧
    e.chain.position = some ⟨naps, 0⟩ ∧
    (e.opening (.update 3) = .ok short ∧
      e.Lingers (.timer 5) (.update 3) short.phase.engine ∧ ∀ q, ¬ short.phase.Runs q) ∧
    e.opening (.update 6) = .ok long ∧
      long = ⟨.begun (e.resumed (.timer 5) (.update 6) ⟨naps, 0⟩), .ok ()⟩ := by
  obtain ⟨⟨e, short, long⟩, hrun, hglance⟩ := exists_ok (r := dozing)
    (f := fun (e, _, _) => (e.chain.wait, e.chain.paused, e.chain.position))
    (b := (some (.timer 5), false, some ⟨naps, 0⟩)) (by decide +kernel)
  obtain ⟨e₁, hserve, hrun⟩ := bind_eq_ok.mp hrun
  obtain ⟨short₁, hshort, hrun⟩ := bind_eq_ok.mp hrun
  obtain ⟨long₁, hlong, hrun⟩ := bind_eq_ok.mp hrun
  cases hrun
  simp only [Prod.mk.injEq] at hglance
  obtain ⟨hwait, hready, hposition⟩ := hglance
  have hreach : Reachable table {} (.resting e) := ⟨scene, rfl, reaches_of_serve hserve⟩
  obtain ⟨p, call, hp, -, hrequest, -⟩ := waits_until_satisfied hreach hwait
  obtain rfl : ⟨naps, 0⟩ = p := Option.some.inj (hposition.symm.trans hp)
  have hnot : ¬ e.Satisfies (.timer 5) (.update 3) := by
    rintro ⟨-, hover⟩
    omega
  obtain ⟨hlingers, -, hnothing⟩ := ((hrequest (.update 3) rfl).2 short hshort).1 hnot
  have hresumed := ((hrequest (.update 6) rfl).2 long hlong).2 (.timeout hready (by omega))
  exact ⟨e, short, long, ⟨hreach, hwait⟩, hp, ⟨hshort, hlingers, hnothing⟩, hlong, hresumed⟩

end Rehearsal

end Cutscene
