import Cutscene.Proofs.Stride

/-! Sound chains. A chain that does not run holds nothing, and one that runs stands inside its
script or just behind it. A script that is left in the middle of a run may leave its caller one line
further; the same run brings the chain back before it rests. -/

namespace Cutscene

namespace Chain

/-- What holds of a chain, up to so many lines that it may stand beyond its script. -/
structure Sound (limit slack : Nat) (c : Chain) : Prop where
  running_iff : c.isRunning = true ↔ c.script?.isSome = true
  idle : c.isRunning = false →
    c.line = 0 ∧ c.callers = [] ∧ c.wait = none ∧ c.owner = none ∧ c.paused = false
  line_le : ∀ s, c.script? = some s → c.line ≤ s.length + slack
  waits_at_call : c.wait.isSome = true → ∃ call, c.instruction? = some (.call call)
  callers_le : ∀ q ∈ c.callers, q.line ≤ q.script.length
  depth_le : c.depth ≤ limit

variable {limit slack : Nat} {c c' : Chain} {p : Position} {i : Instruction}

theorem sound_empty (limit slack : Nat) : Sound limit slack {} where
  running_iff := by simp
  idle _ := ⟨rfl, rfl, rfl, rfl, rfl⟩
  line_le s h := by cases h
  waits_at_call h := by cases h
  callers_le q h := by cases h
  depth_le := Nat.zero_le limit

theorem Sound.mono (h : c.Sound limit slack) {slack' : Nat} (hle : slack ≤ slack') :
    c.Sound limit slack' :=
  { h with line_le := fun s hs => Nat.le_trans (h.line_le s hs) (by omega) }

theorem Sound.position_le (h : c.Sound limit slack) (hp : c.position = some p) :
    p.line ≤ p.script.length + slack := by
  obtain ⟨hscript, hline⟩ := position_eq_some.mp hp
  exact hline ▸ h.line_le p.script hscript

theorem Sound.isRunning (h : c.Sound limit slack) (hp : c.position = some p) :
    c.isRunning = true :=
  h.running_iff.mpr (by rw [← isSome_position, hp]; rfl)

theorem Sound.inside (h : c.Sound limit slack) (hp : c.position = some p)
    (hi : p.instruction? = some i) : c.Sound limit 0 := by
  have hlt : p.line < p.script.length := (List.getElem?_eq_some_iff.mp hi).1
  obtain ⟨hscript, hline⟩ := position_eq_some.mp hp
  refine { h with line_le := fun s hs => ?_ }
  obtain rfl : p.script = s := Option.some.inj (hscript.symm.trans hs)
  omega

/-- A running chain may be put anywhere inside a script, as long as it waits for nothing. -/
theorem Sound.moved (h : c.Sound limit slack) (hrun : c.isRunning = true) (hwait : c.wait = none)
    {slack' : Nat} (hp : p.line ≤ p.script.length + slack') :
    (c.standingAt p).Sound limit slack' where
  running_iff := by simp [standingAt, hrun]
  idle hidle := by
    rw [standingAt, hrun] at hidle
    cases hidle
  line_le s hs := by
    obtain rfl := Option.some.inj hs
    exact hp
  waits_at_call hwaits := by simp [standingAt, hwait] at hwaits
  callers_le := h.callers_le
  depth_le := h.depth_le

theorem Sound.countVisit (h : c.Sound limit slack) (name : String) :
    (c.countVisit name).Sound limit slack :=
  { h with }

theorem Sound.advance (h : c.Sound limit slack) (hp : c.position = some p)
    (hi : p.instruction? = some i) (hwait : c.wait = none) : c.advance.Sound limit 0 := by
  have hlt : p.line < p.script.length := (List.getElem?_eq_some_iff.mp hi).1
  rw [advance_eq hp]
  exact h.moved (h.isRunning hp) hwait hlt

theorem Sound.park (h : c.Sound limit 0) {call : Call} (hcall : c.instruction? = some (.call call))
    (wait : Wait) : Sound limit 0 { c with wait := some wait } := by
  refine { h with idle := fun hidle => ?_, waits_at_call := fun _ => ⟨call, hcall⟩ }
  obtain ⟨p, hp, -⟩ := Option.bind_eq_some_iff.mp hcall
  have hrun : c.isRunning = false := hidle
  rw [h.isRunning hp] at hrun
  cases hrun

theorem Sound.unpark (h : c.Sound limit slack) : Sound limit slack { c with wait := none } := by
  refine { h with idle := fun hidle => ?_, waits_at_call := fun hwaits => by cases hwaits }
  obtain ⟨hline, hcallers, -, howner, hpaused⟩ := h.idle hidle
  exact ⟨hline, hcallers, rfl, howner, hpaused⟩

theorem Sound.dress (h : c.Sound limit slack) (hrun : c.isRunning = true) (owner : Option Owner)
    (paused : Bool) : Sound limit slack { c with owner, paused } := by
  refine { h with idle := fun hidle => ?_ }
  have hfalse : c.isRunning = false := hidle
  rw [hrun] at hfalse
  cases hfalse

theorem Sound.resume (h : c.Sound limit slack) : Sound limit slack { c with paused := false } := by
  refine { h with idle := fun hidle => ?_ }
  obtain ⟨hline, hcallers, hwait, howner, -⟩ := h.idle hidle
  exact ⟨hline, hcallers, hwait, howner, rfl⟩

theorem Sound.enter (h : c.Sound limit slack) (hle : ∀ p, c.position = some p →
    p.line ≤ p.script.length) (hroom : c.depth + (if c.script?.isSome then 1 else 0) ≤ limit)
    (script : Script) : (c.enter script).Sound limit 0 where
  running_iff := by simp [Chain.enter]
  idle hidle := by cases hidle
  line_le s hs := Nat.zero_le _
  waits_at_call hwaits := by cases hwaits
  callers_le q hq := by
    cases hp : c.position with
    | none => exact h.callers_le q (by simpa [Chain.enter, hp] using hq)
    | some p =>
      rcases List.mem_cons.mp (by simpa [Chain.enter, hp] using hq) with rfl | hq
      · exact hle q hp
      · exact h.callers_le q hq
  depth_le := by
    rw [← isSome_position] at hroom
    cases hp : c.position with
    | none => simpa [Chain.enter, depth, hp] using h.depth_le
    | some p => simpa [Chain.enter, depth, hp] using hroom

theorem Sound.leave (h : c.Sound limit slack) (hrun : c.isRunning = true) (hwait : c.wait = none)
    (hleave : c.leave? = some c') : c'.Sound limit 1 := by
  obtain ⟨caller, callers, hc, rfl⟩ := leave?_eq_some.mp hleave
  have hcallers : ∀ q ∈ caller :: callers, q.line ≤ q.script.length := hc ▸ h.callers_le
  have hdepth : callers.length + 1 ≤ limit := by simpa [depth, hc] using h.depth_le
  have hmoved : (c.standingAt caller.advanced).Sound limit 1 :=
    h.moved hrun hwait (Nat.add_le_add_right (hcallers caller (List.mem_cons_self ..)) 1)
  refine { hmoved with
    idle := fun hidle => ?_
    callers_le := fun q hq => hcallers q (List.mem_cons_of_mem _ hq)
    depth_le := Nat.le_of_succ_le hdepth }
  have hfalse : c.isRunning = false := hidle
  rw [hrun] at hfalse
  cases hfalse

theorem Sound.finish (h : c.Sound limit slack) (hpaused : c.paused = false) (hc : c.callers = []) :
    c.finish.Sound limit 0 where
  running_iff := by simp [Chain.finish]
  idle _ := ⟨rfl, hc, rfl, rfl, hpaused⟩
  line_le s hs := by cases hs
  waits_at_call hwaits := by cases hwaits
  callers_le := h.callers_le
  depth_le := h.depth_le

theorem Sound.goBack (h : c.Sound limit slack) (hp : c.position = some p) (hwait : c.wait = none) :
    c.goBack.Sound limit 1 := by
  unfold Chain.goBack
  cases hleave : c.leave? with
  | some c' => exact h.leave (h.isRunning hp) hwait hleave
  | none =>
    obtain ⟨hscript, -⟩ := position_eq_some.mp hp
    dsimp only
    rw [withLine_eq hp, hscript]
    exact h.moved (h.isRunning hp) hwait (Nat.le_add_right _ _)

end Chain

/-- A phase whose chain is sound. A free engine may still stand a line beyond its script. -/
def Phase.Sound {ω : Type} (limit : Nat) : Phase ω → Prop
  | resting e => e.chain.Sound limit 0
  | running _ e => e.chain.Sound limit 0 ∨ e.chain.Sound limit 1 ∧ e.isHeld = false

theorem Phase.Sound.slack {ω : Type} {limit left : Nat} {e : Engine ω}
    (h : (Phase.running left e).Sound limit) : e.chain.Sound limit 1 := by
  rcases h with hsound | ⟨hsound, -⟩
  · exact hsound.mono (Nat.zero_le 1)
  · exact hsound

namespace Engine

variable {ω : Type} [World ω] {e : Engine ω} {p : Position} {i : Instruction} {c : Chain}
  {limit : Nat}

theorem Stride.sound (h : e.Stride i c) (hsound : e.chain.Sound e.options.maxDepth 0)
    (hfree : e.isHeld = false) (hp : e.chain.position = some p) (hi : p.instruction? = some i) :
    c.Sound e.options.maxDepth 0 ∨
      c.Sound e.options.maxDepth 1 ∧ (e.withChain c).isHeld = false := by
  have hrun := isRunning_of_free hfree
  have hwait := wait_of_free hfree
  have hnext : e.chain.instruction? = some i := by simpa [Chain.instruction?, hp] using hi
  cases h with
  | pass counts => exact Or.inl ((hsound.countVisit _).advance hp hi hwait)
  | advance => exact Or.inl (hsound.advance hp hi hwait)
  | stay => exact Or.inl hsound
  | park wait => exact Or.inl (hsound.park hnext wait)
  | @jump call p' name i' stands marked counts =>
    have hlt : i' < p'.script.length := (List.findIdx?_eq_some_iff_findIdx_eq.mp marked).1
    have hstands : (e.chain.countVisit name).position = some p' := stands
    rw [Chain.withLine_eq hstands]
    exact Or.inl ((hsound.countVisit name).moved hrun hwait hlt)
  | enter asks room =>
    refine Or.inl (hsound.enter (fun q hq => hsound.position_le hq) ?_ _)
    simpa [hsound.running_iff.mp hrun] using room
  | goBack asks => exact Or.inr ⟨hsound.goBack hp hwait, isHeld_goBack hfree⟩

omit [World ω] in
theorem Opens.sound {r : Request ω} (h : e.Opens r c)
    (hsound : e.chain.Sound e.options.maxDepth 0) : c.Sound e.options.maxDepth 0 := by
  cases h with
  | keep => exact hsound
  | finish outside =>
    have hidle : e.chain.isRunning = false := by
      rw [Bool.eq_false_iff, ne_eq, hsound.running_iff, outside]
      exact Bool.false_ne_true
    obtain ⟨-, hcallers, -, -, hpaused⟩ := hsound.idle hidle
    exact hsound.finish hpaused hcallers
  | enter script owner room =>
    have hentered := hsound.enter (fun q hq => hsound.position_le hq) room script
    exact hentered.dress rfl owner e.chain.paused
  | rewait waits wait' =>
    obtain ⟨call, hcall⟩ := hsound.waits_at_call (by simp [waits])
    exact hsound.park hcall wait'
  | goOn waits =>
    obtain ⟨call, hcall⟩ := hsound.waits_at_call (by simp [waits])
    obtain ⟨p, hp, hi⟩ := Option.bind_eq_some_iff.mp hcall
    exact hsound.unpark.advance hp hi rfl
  | pause runs => exact hsound.dress runs e.chain.owner true
  | resume => exact hsound.resume
  | stop => exact Chain.sound_empty _ _

end Engine

open Engine

variable {ω : Type} [World ω] {s t : Phase ω}

theorem Round.sound {limit : Nat} (h : Round s t) (hlimit : s.engine.options.maxDepth = limit)
    (hs : s.Sound limit) : t.Sound limit := by
  subst hlimit
  cases h with
  | halt held =>
    rcases hs with hsound | ⟨-, hfree⟩
    · exact hsound
    · rw [held] at hfree
      cases hfree
  | leave free runs ended leaves =>
    exact Or.inr ⟨hs.slack.leave (isRunning_of_free free) (wait_of_free free) leaves,
      isHeld_leave free leaves⟩
  | finish free ended alone =>
    have hruns := hs.slack.running_iff.mp (isRunning_of_free free)
    exact Or.inl (hs.slack.finish (paused_of_free free) (alone hruns))
  | yield free stands next =>
    simp only [Phase.Sound, yield_chain]
    exact hs.slack.inside stands next
  | step free stands next ran =>
    exact (stride_of_step ran).sound (hs.slack.inside stands next) free stands next

/-- Every turn leaves a sound chain sound. -/
theorem Turn.sound {asked : Option (Request ω)} {limit : Nat} (h : Turn asked s t)
    (hlimit : s.engine.options.maxDepth = limit) (hs : s.Sound limit) : t.Sound limit := by
  cases h with
  | round round => exact round.sound hlimit hs
  | @request e r o opens =>
    subst hlimit
    have hsound := (opens_of_opening opens).1.sound hs
    cases hphase : o.phase with
    | resting e' =>
      rw [hphase] at hsound
      exact hsound
    | running left e' =>
      rw [hphase] at hsound
      exact Or.inl hsound

theorem sound_of_reaches {table : CommandTable} {options : Options} {scene : Scene ω}
    (h : Reaches (.resting (fresh table options scene)) s) : s.Sound options.maxDepth := by
  refine invariant_of_reaches (P := fun s => s.Sound options.maxDepth) h (Chain.sound_empty _ _) ?_
  intro asked s t hreach hs hturn
  obtain ⟨-, hoptions⟩ := frame_of_reaches hreach
  exact hturn.sound (by rw [hoptions]) hs

theorem Reachable.sound {table : CommandTable} {options : Options}
    (h : Reachable table options s) : s.Sound options.maxDepth := by
  obtain ⟨scene, -, hreach⟩ := h
  exact sound_of_reaches hreach

/-- Whatever a host has asked for, and however often: between its requests the chain is sound. -/
theorem chain_sound_of_serve {table : CommandTable} {options : Options} {scene : Scene ω}
    {rs : List (Request ω)} {e : Engine ω} (h : serve rs (fresh table options scene) = .ok e) :
    e.chain.Sound options.maxDepth 0 :=
  sound_of_reaches (reaches_of_serve h)

/-- A chain paused in a script that another one waits for. -/
theorem paused_inner_sound : ∃ e, serve
    [.runContent "outer" "RunScript(inner);\nSleep(7);" none, .pause]
      (fresh Rehearsal.table { maxDepth := 1 } Rehearsal.scene) = .ok e ∧
    e.chain.depth = 1 ∧ e.chain.status = .paused ∧ e.chain.Sound 1 0 := by
  obtain ⟨e, hserve, hstate⟩ := exists_ok (f := fun e => (e.chain.depth, e.chain.status))
    (b := (1, .paused)) (r := serve
      [.runContent "outer" "RunScript(inner);\nSleep(7);" none, .pause]
      (fresh Rehearsal.table { maxDepth := 1 } Rehearsal.scene)) (by decide +kernel)
  obtain ⟨hdepth, hstatus⟩ := Prod.mk.inj hstate
  exact ⟨e, hserve, hdepth, hstatus, chain_sound_of_serve hserve⟩

end Cutscene
