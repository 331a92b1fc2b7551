import Cutscene.Proofs.Failure

/-! Nested scripts. A turn parks one more caller, goes back to the innermost one, or leaves the
callers alone; so the callers below a script that was started stay as they are until it is left. -/

namespace Cutscene

variable {ω : Type} [World ω]

/-- A phase in which a script is left: by its end, or by a call that asks to go back. -/
inductive Returning : Phase ω → Prop where
  | ended {left : Nat} {e : Engine ω} (free : e.isHeld = false) (ended : e.chain.isAtEnd = true) :
      Returning (.running left e)
  | asked {left : Nat} {e : Engine ω} {call : Call} (free : e.isHeld = false)
      (next : e.chain.instruction? = some (.call call)) (asks : e.Asks call .goBack) :
      Returning (.running (left + 1) e)

/-- How a turn moves the chain among its scripts. -/
inductive Shift (s : Phase ω) (c : Chain) : Prop where
  | within (callers : c.callers = s.chain.callers)
  | inward {p : Position} (stands : s.chain.position = some p)
      (callers : c.callers = p :: s.chain.callers)
  | outward {caller : Position} (returning : Returning s)
      (callers : s.chain.callers = caller :: c.callers) (stands : c.position = some caller.advanced)

namespace Chain

variable {c : Chain} {p : Position}

/-- The chain behind the call at a position, with the callers that were below it. -/
def behind (c : Chain) (p : Position) (callers : List Position) : Chain :=
  { c.standingAt p.advanced with callers }

theorem leave?_cons {callers : List Position} (h : c.callers = p :: callers) :
    c.leave? = some (c.behind p callers) := by
  rw [leave?, h]
  rfl

theorem goBack_cons {callers : List Position} (h : c.callers = p :: callers) :
    c.goBack = c.behind p callers := by
  rw [goBack, leave?_cons h]

theorem goBack_alone (hp : c.position = some p) (hc : c.callers = []) :
    c.goBack = c.standingAt ⟨p.script, p.script.length⟩ := by
  have hnone : c.leave? = none := by rw [leave?, hc]
  rw [goBack, hnone, ← withLine_eq hp, (position_eq_some.mp hp).1]
  rfl

end Chain

namespace Engine

variable {e : Engine ω} {p : Position} {i : Instruction} {c : Chain}

theorem Stride.shift {left : Nat} (h : e.Stride i c) (hfree : e.isHeld = false)
    (hp : e.chain.position = some p) (hi : p.instruction? = some i) :
    Shift (.running (left + 1) e) c := by
  cases h with
  | pass counts => exact .within rfl
  | advance => exact .within rfl
  | stay => exact .within rfl
  | park wait => exact .within rfl
  | jump stands marked counts => exact .within rfl
  | enter asks room => exact .inward hp (Chain.callers_enter hp _)
  | @goBack call asks =>
    have hnext : e.chain.instruction? = some (.call call) := by
      simpa [Chain.instruction?, hp] using hi
    cases hleave : e.chain.leave? with
    | none => exact .within (by simp [Chain.goBack, hleave])
    | some c' =>
      have hback : e.chain.goBack = c' := by simp [Chain.goBack, hleave]
      obtain ⟨caller, callers, hc, rfl⟩ := Chain.leave?_eq_some.mp hleave
      rw [hback]
      exact .outward (.asked hfree hnext asks) hc rfl

omit [World ω] in
theorem Opens.callers {r : Request ω} (h : e.Opens r c) (hstop : r ≠ .stop) :
    c.callers = e.chain.callers ∨
      ∃ p, e.chain.position = some p ∧ c.callers = p :: e.chain.callers := by
  cases h with
  | keep => exact Or.inl rfl
  | finish outside => exact Or.inl rfl
  | enter script owner room =>
    cases hp : e.chain.position with
    | none => exact Or.inl (Chain.callers_enter_first (c := { e.chain with owner }) hp script)
    | some p => exact Or.inr ⟨p, rfl, Chain.callers_enter (c := { e.chain with owner }) hp script⟩
  | rewait waits wait' => exact Or.inl rfl
  | goOn waits => exact Or.inl rfl
  | pause runs => exact Or.inl rfl
  | resume => exact Or.inl rfl
  | stop => exact absurd rfl hstop

end Engine

open Engine

variable {s t : Phase ω}

theorem Round.shift (h : Round s t) : Shift s t.chain := by
  cases h with
  | halt held => exact .within rfl
  | leave free runs ended leaves =>
    obtain ⟨caller, callers, hc, rfl⟩ := Chain.leave?_eq_some.mp leaves
    exact .outward (.ended free ended) hc rfl
  | finish free ended alone => exact .within rfl
  | yield free stands next => exact .within (by simp)
  | step free stands next ran => exact (stride_of_step ran).shift free stands next

/-- A turn of the engine, or of a host that does not stop the chain. -/
def Undisturbed (s t : Phase ω) : Prop := ∃ asked, asked ≠ some .stop ∧ Turn asked s t

theorem Undisturbed.shift (h : Undisturbed s t) : Shift s t.chain := by
  obtain ⟨asked, hasked, hturn⟩ := h
  cases hturn with
  | round round => exact round.shift
  | @request e r o opens =>
    have hstop : r ≠ .stop := fun hr => hasked (congrArg some hr)
    rcases (opens_of_opening opens).1.callers hstop with hcallers | ⟨p, hp, hcallers⟩
    · exact .within hcallers
    · exact .inward hp hcallers

theorem Engine.Stride.runs {e : Engine ω} {i : Instruction} {c : Chain} (h : e.Stride i c)
    (hruns : e.chain.script?.isSome = true) : c.script?.isSome = true := by
  cases h with
  | goBack asks =>
    unfold Chain.goBack
    cases hleave : e.chain.leave? with
    | none => exact hruns
    | some c' =>
      obtain ⟨caller, callers, -, rfl⟩ := Chain.leave?_eq_some.mp hleave
      rfl
  | enter asks room => rfl
  | _ => exact hruns

/-- A chain that has a script has one as long as a caller is parked. -/
theorem Undisturbed.runs (h : Undisturbed s t) (hruns : s.chain.script?.isSome = true)
    (hdeep : 0 < t.chain.depth) : t.chain.script?.isSome = true := by
  obtain ⟨asked, hasked, hturn⟩ := h
  cases hturn with
  | round round =>
    cases round with
    | halt held => exact hruns
    | leave free inside ended leaves =>
      obtain ⟨caller, callers, -, rfl⟩ := Chain.leave?_eq_some.mp leaves
      rfl
    | @finish left e free ended alone =>
      have hnone : e.chain.finish.depth = 0 := congrArg List.length (alone hruns)
      rw [Phase.chain_running, withChain_chain, hnone] at hdeep
      cases hdeep
    | yield free stands next => simpa using hruns
    | step free stands next ran => exact (stride_of_step ran).runs hruns
  | @request e r o opens =>
    have hopens := (opens_of_opening opens).1
    generalize o.phase.chain = c at hopens
    cases hopens with
    | finish outside =>
      rw [Phase.chain_resting, outside] at hruns
      cases hruns
    | enter script owner room => rfl
    | stop => exact absurd rfl hasked
    | _ => exact hruns

/-- Turns during which more than so many callers stay parked. -/
abbrev Stays (depth : Nat) : Phase ω → Phase ω → Prop :=
  Relation.ReflTransGen fun s t => Undisturbed s t ∧ depth < t.chain.depth

theorem suffix_of_stays {frames : List Position} {depth : Nat} (h : Stays depth s t)
    (hlen : frames.length = depth + 1) (hs : frames <:+ s.chain.callers) :
    frames <:+ t.chain.callers := by
  induction h with
  | refl => exact hs
  | @tail t u _ hturn ih =>
    obtain ⟨hturn, hdeep⟩ := hturn
    cases hturn.shift with
    | within callers => rwa [callers]
    | inward stands callers =>
      rw [callers]
      exact ih.trans (List.suffix_cons _ _)
    | outward returning callers stands =>
      rw [callers, List.suffix_cons_iff] at ih
      -- a turn back to the outermost of the frames would leave too few callers
      rcases ih with heq | hsuffix
      · rw [heq, List.length_cons] at hlen
        simp only [Chain.depth] at hdeep
        omega
      · exact hsuffix

theorem returns_of_suffix {p : Position} {frames : List Position} (h : Undisturbed s t)
    (hs : (p :: frames) <:+ s.chain.callers) (hends : t.chain.depth ≤ frames.length) :
    Returning s ∧ t.chain.position = some p.advanced ∧ t.chain.callers = frames := by
  have hlen := hs.length_le
  simp only [List.length_cons] at hlen
  simp only [Chain.depth] at hends
  cases h.shift with
  | within callers =>
    rw [callers] at hends
    omega
  | inward stands callers =>
    rw [callers, List.length_cons] at hends
    omega
  | outward returning callers stands =>
    rw [callers, List.suffix_cons_iff] at hs
    rcases hs with heq | hsuffix
    · obtain ⟨rfl, rfl⟩ := List.cons.inj heq
      exact ⟨returning, stands, rfl⟩
    · have hle := hsuffix.length_le
      simp only [List.length_cons] at hle
      omega

namespace Engine

/-- The instruction at a position has started a script on top of the one that runs. -/
structure Calls (e : Engine ω) (p : Position) (e' : Engine ω) : Prop where
  free : e.isHeld = false
  stands : e.chain.position = some p
  ran : ∃ i, p.instruction? = some i ∧ e.step p i = .ok e'
  entered : e.chain.depth < e'.chain.depth

theorem Calls.enters {e e' : Engine ω} {p : Position} (h : e.Calls p e') :
    ∃ call target script, p.instruction? = some (.call call) ∧ e.Asks call (.run target) ∧
      e'.chain = e.chain.enter script := by
  obtain ⟨hfree, hp, ⟨i, hi, hstep⟩, hentered⟩ := h
  have hstride := stride_of_step hstep
  generalize e'.chain = c at hstride hentered
  cases hstride with
  | enter asks room => exact ⟨_, _, _, hi, asks, rfl⟩
  | goBack asks =>
    have hle := depth_goBack_le e.chain
    omega
  | _ => exact absurd hentered (Nat.lt_irrefl _)

theorem Calls.callers {e e' : Engine ω} {p : Position} (h : e.Calls p e') :
    e'.chain.callers = p :: e.chain.callers := by
  obtain ⟨call, target, script, -, -, henter⟩ := h.enters
  rw [henter, Chain.callers_enter h.stands]

end Engine

theorem runs_of_stays {depth : Nat} (h : Stays depth s t)
    (hs : s.chain.script?.isSome = true) : t.chain.script?.isSome = true := by
  induction h with
  | refl => exact hs
  | tail _ hturn ih => exact hturn.1.runs ih (Nat.zero_lt_of_lt hturn.2)

/-- A free engine at the end of a called script goes on as it does behind the call. -/
theorem steps_at_end {e : Engine ω} {p : Position} {callers : List Position}
    (hfree : e.isHeld = false) (hruns : e.chain.script?.isSome = true)
    (hc : e.chain.callers = p :: callers) (hend : e.chain.isAtEnd = true) (n : Nat) :
    e.steps n = (e.withChain (e.chain.behind p callers)).steps n :=
  steps_congr (ready_leave hfree hruns hend (Chain.leave?_cons hc))

/-- A free engine that asks to go back goes on behind the call, one step later. -/
theorem steps_of_goBack {e : Engine ω} {p : Position} {callers : List Position} {call : Call}
    (hfree : e.isHeld = false) (hc : e.chain.callers = p :: callers)
    (hnext : e.chain.instruction? = some (.call call)) (hasks : e.Asks call .goBack) :
    ∃ b : Engine ω, b.chain = e.chain.behind p callers ∧
      ∀ n, e.steps (n + 1) = b.steps n := by
  obtain ⟨q, hq, hi⟩ := Option.bind_eq_some_iff.mp hnext
  have harrived : (e.arrived q).chain = e.chain := by simp [arrived]
  have hact : (e.arrived q).act .goBack =
      .ok ((e.arrived q).withChain (e.chain.behind p callers), .ok .moved) := by
    rw [act, harrived, Chain.goBack_cons hc]
  have hstep := step_of_act hasks hact
  refine ⟨_, ?_, fun n => steps_of_step hfree hq hi hstep⟩
  rw [follow_chain]
  rfl

/-- As long as a called script lasts, its caller stays parked with the frames below it; when it
ends, the chain stands behind the call, with those frames. It ends whenever it is to go on and has
come to its end or asks to go back: what is then run is what is run behind the call. -/
theorem call_nests {e e' : Engine ω} {p : Position} {left : Nat} (hcall : e.Calls p e')
    (hstays : Stays e.chain.depth (.running left e') s) :
    (p :: e.chain.callers) <:+ s.chain.callers ∧
    (∀ t, Undisturbed s t → t.chain.depth ≤ e.chain.depth →
      Returning s ∧ t.chain.position = some p.advanced ∧ t.chain.callers = e.chain.callers) ∧
    (s.chain.depth = e.chain.depth + 1 → s.engine.isHeld = false →
      (s.chain.isAtEnd = true → ∀ n, s.engine.steps n =
        (s.engine.withChain (s.chain.behind p e.chain.callers)).steps n) ∧
      ∀ call, s.chain.instruction? = some (.call call) → s.engine.Asks call .goBack →
        ∃ b : Engine ω, b.chain = s.chain.behind p e.chain.callers ∧
          ∀ n, s.engine.steps (n + 1) = b.steps n) := by
  have hstart : (p :: e.chain.callers) <:+ (Phase.running left e').chain.callers :=
    hcall.callers.symm ▸ List.suffix_rfl
  have hsuffix := suffix_of_stays hstays rfl hstart
  refine ⟨hsuffix, fun t hturn hends => returns_of_suffix hturn hsuffix hends,
    fun hdepth hfree => ?_⟩
  have hinside : e'.chain.script?.isSome = true := by
    obtain ⟨call, target, script, -, -, henter⟩ := hcall.enters
    rw [henter]
    rfl
  have hruns := runs_of_stays hstays hinside
  have hcallers : s.chain.callers = p :: e.chain.callers :=
    (hsuffix.eq_of_length (by rw [List.length_cons]; exact hdepth.symm)).symm
  exact ⟨fun hend => steps_at_end hfree hruns hcallers hend,
    fun call hnext hasks => steps_of_goBack hfree hcallers hnext hasks⟩

namespace Rehearsal

def outer : Script := (Script.parse "outer" "RunScript(inner);\nSleep(7);").script

def inner : Script := (Script.parse "inner" "Sleep(5);").script

def send : Instruction := .call ⟨"RunScript", ["inner"], "", "RunScript(inner);", 1⟩

def rest : Instruction := .call ⟨"Sleep", ["5"], "", "Sleep(5);", 1⟩

def engine : Engine Recording := (fresh table {} scene).withChain (({} : Chain).enter outer)

/-- The inner script sleeps until the host lets time pass. -/
def run : Except (Crash Recording) (Engine Recording × Engine Recording × Opening Recording) := do
  let sent ← engine.step ⟨outer, 0⟩ send
  let asleep ← sent.step ⟨inner, 0⟩ rest
  let woken ← asleep.opening (.update 6)
  return (sent, asleep, woken)

theorem suspended_call_nests : ∃ (sent : Engine Recording) (s t : Phase Recording),
    engine.Calls ⟨outer, 0⟩ sent ∧ Stays engine.chain.depth (.running 1 sent) s ∧
    Undisturbed s t ∧ t.chain.depth ≤ engine.chain.depth ∧
    Returning s ∧ t.chain.position = some ⟨outer, 1⟩ ∧ t.chain.callers = engine.chain.callers ∧
    s.chain.isAtEnd = true ∧
    ∀ n, s.engine.steps n = (s.engine.withChain (s.chain.behind ⟨outer, 0⟩ [])).steps n := by
  obtain ⟨⟨sent, asleep, woken⟩, hrun, hglance⟩ := exists_ok (r := run)
    (f := fun (sent, asleep, woken) =>
      [glance (.running 1 sent), glance (.running 0 asleep), glance woken.phase])
    (b := [⟨some ⟨inner, 0⟩, [⟨outer, 0⟩], false, some 1⟩,
      ⟨some ⟨inner, 0⟩, [⟨outer, 0⟩], true, some 0⟩,
      ⟨some ⟨inner, 1⟩, [⟨outer, 0⟩], false, some 10000⟩]) (by decide +kernel)
  obtain ⟨sent', hsent, hrun⟩ := bind_eq_ok.mp hrun
  obtain ⟨asleep', hasleep, hrun⟩ := bind_eq_ok.mp hrun
  obtain ⟨woken', hwoken, hrun⟩ := bind_eq_ok.mp hrun
  cases hrun
  simp only [List.cons.injEq] at hglance
  obtain ⟨hglanced, hslept, hwoke, -⟩ := hglance
  obtain ⟨_, ⟨⟩, hposition, hcallers, hfree⟩ := running_of_glance hglanced
  obtain ⟨_, ⟨⟩, -, hparked, hheld⟩ := running_of_glance hslept
  obtain ⟨e, hphase, hend, hkept, hready⟩ := running_of_glance hwoke
  have hnone : engine.chain.callers = [] := rfl
  have hcall : engine.Calls ⟨outer, 0⟩ sent := by
    refine ⟨rfl, rfl, ⟨send, by decide +kernel, hsent⟩, ?_⟩
    simp [Chain.depth, hcallers, hnone]
  have hslept : Undisturbed (.running 1 sent) (.running 0 asleep) :=
    ⟨none, by simp, .round (.step hfree hposition (by decide +kernel) hasleep)⟩
  have hhalted : Undisturbed (.running 0 asleep) (.resting asleep) :=
    ⟨none, by simp, .round (.halt hheld)⟩
  have hasked : Undisturbed (.resting asleep) (.running 10000 e) :=
    ⟨some (.update 6), by simp, hphase ▸ .request hwoken⟩
  have hstays : Stays engine.chain.depth (.running 1 sent) (.running 10000 e) :=
    ((Relation.ReflTransGen.single ⟨hslept, by simp [Chain.depth, hnone, hparked]⟩).tail
      ⟨hhalted, by simp [Chain.depth, hnone, hparked]⟩).tail
      ⟨hasked, by simp [Chain.depth, hnone, hkept]⟩
  have hdone : Position.isAtEnd ⟨inner, 1⟩ = true := by decide +kernel
  have hended : e.chain.isAtEnd = true := by simp [Chain.isAtEnd, hend, hdone]
  have hdepth : e.chain.depth = engine.chain.depth + 1 := by simp [Chain.depth, hnone, hkept]
  have hruns : e.chain.script?.isSome = true := by rw [← Chain.isSome_position, hend]; rfl
  have hleave := Chain.leave?_eq_some.mpr ⟨_, _, hkept, rfl⟩
  have hleft : Undisturbed (.running 10000 e) (.running 10000 (e.withChain _)) :=
    ⟨none, by simp, .round (.leave hready hruns hended hleave)⟩
  obtain ⟨-, hreturns, hleaves⟩ := call_nests hcall hstays
  obtain ⟨hreturning, hstands, hcallers⟩ := hreturns _ hleft (Nat.le_refl 0)
  exact ⟨sent, _, _, hcall, hstays, hleft, Nat.le_refl 0, hreturning, hstands, hcallers, hended,
    (hleaves hdepth hready).1 hended⟩

end Rehearsal

end Cutscene
