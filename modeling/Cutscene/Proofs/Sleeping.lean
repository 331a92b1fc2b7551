import Cutscene.Proofs.Failure
import Cutscene.Proofs.Suspension

/-! Sleeping chains. A chain that sleeps counts the time of the frames that pass while it is not
paused. It stays at its line, with everything else as it was, until this time reaches the time that
was asked for, and it goes on in the frame that reaches it. -/

namespace Cutscene

variable {ω : Type}

/-- What has come of a sleep: whether the chain is paused, and the time that counts. -/
structure Slumber where
  paused : Bool := false
  slept : Int := 0
  deriving DecidableEq

namespace Slumber

/-- The time of a frame counts unless the chain is paused, and nothing else counts. -/
def next (s : Slumber) : Request ω → Slumber
  | .update elapsed => if s.paused then s else { s with slept := s.slept + elapsed }
  | .pause => { s with paused := true }
  | .resume => { s with paused := false }
  | _ => s

def after (s : Slumber) (rs : List (Request ω)) : Slumber := rs.foldl next s

/-- The time counted stays below a time in every frame that counts, and what is left of that time
within 64 bits. -/
def Lasts (s : Slumber) (time : Int) (rs : List (Request ω)) : Prop :=
  ∀ before elapsed later, rs = before ++ .update elapsed :: later →
    (s.after before).paused = false →
      (s.after before).slept + elapsed < time ∧
        Interval.word64.contains (time - ((s.after before).slept + elapsed)) = true

variable {s : Slumber} {time : Int} {r : Request ω} {rs : List (Request ω)}

theorem lasts_nil : s.Lasts time ([] : List (Request ω)) := by
  intro before elapsed later hsplit
  simp at hsplit

theorem lasts_cons : s.Lasts time (r :: rs) ↔
    (∀ elapsed, r = .update elapsed → s.paused = false →
      s.slept + elapsed < time ∧
        Interval.word64.contains (time - (s.slept + elapsed)) = true) ∧
    (s.next r).Lasts time rs := by
  constructor
  · intro h
    refine ⟨fun elapsed hr => h [] elapsed rs (by rw [hr]; rfl), ?_⟩
    intro before elapsed later hsplit
    exact h (r :: before) elapsed later (by rw [hsplit]; rfl)
  · rintro ⟨hfirst, hrest⟩ before elapsed later hsplit
    cases before with
    | nil =>
      obtain ⟨hr, -⟩ := List.cons.inj hsplit
      exact hfirst elapsed hr
    | cons q before =>
      obtain ⟨rfl, htail⟩ := List.cons.inj hsplit
      exact hrest before elapsed later htail

end Slumber

variable [World ω]

namespace Engine

/-- An engine that sleeps, as it is with so much of its time slept. -/
def dozing (e : Engine ω) (time : Int) (s : Slumber) : Engine ω :=
  e.withChain { e.chain with wait := some (.timer (time - s.slept)), paused := s.paused }

variable {e : Engine ω} {time : Int} {s : Slumber} {r : Request ω} {p : Position} {call : Call}

omit [World ω] in
theorem isHeld_dozing : (e.dozing time s).isHeld = true := isHeld_of_wait rfl

omit [World ω] in
theorem dozing_start (hwait : e.chain.wait = some (.timer time)) (hready : e.chain.paused = false) :
    e.dozing time {} = e := by
  simp only [dozing, Int.sub_zero, ← hwait, ← hready]
  rfl

theorem answer_execute_dozing :
    (e.dozing time s).answer .execute = .ok (e.dozing time s, .ok ()) :=
  answer_execute_of_held isHeld_dozing

theorem answer_update_paused (elapsed : Int) (hpaused : s.paused = true) :
    (e.dozing time s).answer (.update elapsed) = .ok (e.dozing time s, .ok ()) := by
  simp [answer, succeed, update, dozing, hpaused]

/-- A frame that counts polls the clock, which shows the time that is left. -/
theorem answer_update_dozing (elapsed : Int) (hrun : e.chain.isRunning = true)
    (hready : s.paused = false) : (e.dozing time s).answer (.update elapsed) =
      if Interval.word64.contains (time - (s.slept + elapsed)) then
        succeed (if time ≤ s.slept + elapsed then
          (e.withChain { e.chain with wait := none, paused := false }.advance).execute
        else .ok (e.dozing time { s with slept := s.slept + elapsed }))
      else .error ⟨.clock, e.scene.world⟩ := by
  have hleft : time - s.slept - elapsed = time - (s.slept + elapsed) := by omega
  have hover : time - (s.slept + elapsed) ≤ 0 ↔ time ≤ s.slept + elapsed := by omega
  simp only [answer, update, dozing, withChain_chain, hrun, hready, Bool.not_true,
    Bool.or_self, Bool.false_eq_true, if_false, Wait.poll, hleft]
  by_cases hfits : Interval.word64.contains (time - (s.slept + elapsed)) = true
  · by_cases hends : time ≤ s.slept + elapsed
    · simp only [hfits, if_true, ok_bind, hover, hends, decide_true]
      rfl
    · simp only [hfits, if_true, ok_bind, hover, hends, decide_false, if_false]
      rfl
  · simp only [hfits]
    rfl

theorem answer_closeDialog_dozing : (e.dozing time s).answer .closeDialog =
    .ok (e.dozing time s, .error { cause := .noDialog }) := rfl

theorem answer_select_dozing (index : Int32) : (e.dozing time s).answer (.select index) =
    .ok (e.dozing time s, .error { cause := .noSelection }) := rfl

/-- No request that drives the chain does more to a sleep that lasts than to count for it. -/
theorem answer_dozing (hrun : e.chain.isRunning = true) (hdrives : r.drives = true)
    (hlasts : ∀ elapsed, r = .update elapsed → s.paused = false → s.slept + elapsed < time ∧
      Interval.word64.contains (time - (s.slept + elapsed)) = true) :
    ∃ result, (e.dozing time s).answer r = .ok (e.dozing time (s.next r), result) := by
  cases r with
  | execute => exact ⟨_, answer_execute_dozing⟩
  | update elapsed =>
    cases hpaused : s.paused with
    | true =>
      have hsame : s.next (.update elapsed : Request ω) = s := by simp [Slumber.next, hpaused]
      rw [hsame]
      exact ⟨_, answer_update_paused elapsed hpaused⟩
    | false =>
      obtain ⟨hless, hfits⟩ := hlasts elapsed rfl hpaused
      have hnext : s.next (.update elapsed : Request ω) =
          { s with slept := s.slept + elapsed } := by
        simp [Slumber.next, hpaused]
      refine ⟨.ok (), ?_⟩
      rw [answer_update_dozing elapsed hrun hpaused, if_pos hfits, if_neg (Int.not_le.mpr hless),
        hnext]
      rfl
  | closeDialog => exact ⟨_, answer_closeDialog_dozing⟩
  | select index => exact ⟨_, answer_select_dozing index⟩
  | pause =>
    refine ⟨.ok (), ?_⟩
    have hruns : (e.dozing time s).chain.isRunning = true := hrun
    rw [answer, pause, if_pos hruns]
    rfl
  | resume => exact ⟨.ok (), rfl⟩
  | _ => cases hdrives

/-- As long as its time is not reached, no requests that drive the chain end a sleep. -/
theorem serve_dozing {rs : List (Request ω)} (hrun : e.chain.isRunning = true)
    (hdrives : ∀ r ∈ rs, r.drives = true) (hlasts : s.Lasts time rs) :
    serve rs (e.dozing time s) = .ok (e.dozing time (s.after rs)) := by
  induction rs generalizing s with
  | nil => rfl
  | cons r rs ih =>
    obtain ⟨hfirst, hrest⟩ := Slumber.lasts_cons.mp hlasts
    obtain ⟨result, hanswer⟩ := answer_dozing hrun (hdrives r List.mem_cons_self) hfirst
    rw [serve, hanswer, ok_bind, ih (fun q hq => hdrives q (List.mem_cons_of_mem _ hq)) hrest]
    rfl

theorem asks_sleep {command : Command} {time : Int32}
    (hresolve : e.table.resolve call = .ok command) (hsleep : command.handler = Command.sleep)
    (htime : (e.view call).integer 0 = .ok time) (hpos : 0 < time) :
    e.Asks call (.park (.timer time.toInt)) := by
  refine ⟨command, hresolve, ?_⟩
  rw [hsleep]
  simp only [Command.sleep, htime, ok_bind, if_neg (Int32.not_le.mpr hpos)]
  rfl

/-- A call that asks for a wait and nothing else parks the chain at its line. -/
theorem step_park {wait : Wait} (hfree : e.chain.wait = none)
    (hasks : e.Asks call (.park wait)) :
    e.step p (.call call) = .ok ((e.arrived p).park wait).reportLines := by
  have hbegun : (e.arrived p).beginWait wait = .ok ((e.arrived p).park wait) :=
    beginWait_of_free (by simpa [arrived] using hfree) wait
  have hact : (e.arrived p).act (.park wait) = .ok ((e.arrived p).park wait, .ok .parked) := by
    rw [act, hbegun, ok_bind]
    rfl
  exact step_of_act hasks hact

/-- The run rests there, however many steps it has left. -/
theorem steps_of_park {wait : Wait} (hfree : e.isHeld = false) (hp : e.chain.position = some p)
    (hi : p.instruction? = some (.call call)) (hasks : e.Asks call (.park wait)) :
    ∃ parked : Engine ω, (∀ left, e.steps (left + 1) = .ok parked) ∧
      parked.chain = { e.chain with wait := some wait } := by
  have hchain : ((e.arrived p).park wait).reportLines.chain =
      { e.chain with wait := some wait } := by simp [arrived]
  have hrests := isHeld_of_wait (congrArg Chain.wait hchain)
  exact ⟨_, fun _ => steps_of_last hfree hp hi (step_park (wait_of_free hfree) hasks) hrests,
    hchain⟩

end Engine

open Engine

/-- A chain that comes to a sleep rests at its line. Whatever drives the chain leaves the engine as
it was, but for the time that is counted and for being paused or not, until a frame that passes
unpaused brings the time counted to the time asked for; in this frame the chain goes on behind the
line. Events of the player fail, and a frame in which the chain is paused does not count. What is
left of the time has to fit 64 bits, or the clock breaks down. -/
theorem sleep_lasts {e : Engine ω} {p : Position} {call : Call} {command : Command} {time : Int32}
    (hfree : e.isHeld = false) (hp : e.chain.position = some p)
    (hi : p.instruction? = some (.call call)) (hresolve : e.table.resolve call = .ok command)
    (hsleep : command.handler = Command.sleep) (htime : (e.view call).integer 0 = .ok time)
    (hpos : 0 < time) :
    ∃ asleep : Engine ω, (∀ left, e.steps (left + 1) = .ok asleep) ∧
      asleep.chain = { e.chain with wait := some (.timer time.toInt) } ∧
      ∀ rs : List (Request ω), (∀ r ∈ rs, r.drives = true) →
        Slumber.Lasts {} time.toInt rs →
        let s := Slumber.after {} rs
        let held := asleep.dozing time.toInt s
        serve rs asleep = .ok held ∧ held.chain.position = some p ∧
          held.answer .execute = .ok (held, .ok ()) ∧
          held.answer .closeDialog = .ok (held, .error { cause := .noDialog }) ∧
          (∀ index, held.answer (.select index) = .ok (held, .error { cause := .noSelection })) ∧
          ∀ elapsed,
            (s.paused = true → held.answer (.update elapsed) = .ok (held, .ok ())) ∧
            (s.paused = false →
              Interval.word64.contains (time.toInt - (s.slept + elapsed)) = true →
              time.toInt ≤ s.slept + elapsed →
              held.answer (.update elapsed) =
                succeed (asleep.withChain e.chain.advance).execute) ∧
            (s.paused = false →
              Interval.word64.contains (time.toInt - (s.slept + elapsed)) = false →
              held.answer (.update elapsed) = .error ⟨.clock, asleep.scene.world⟩) := by
  obtain ⟨asleep, hsteps, hchain⟩ := steps_of_park hfree hp hi
    (asks_sleep hresolve hsleep htime hpos)
  have hready : asleep.chain.paused = false := by rw [hchain]; exact paused_of_free hfree
  have hwait : asleep.chain.wait = some (.timer time.toInt) := by rw [hchain]
  have hposition : asleep.chain.position = some p := by rw [hchain]; exact hp
  have hrun : asleep.chain.isRunning = true := by rw [hchain]; exact isRunning_of_free hfree
  -- the chain that wakes up is the one that fell asleep
  have hwoken : { asleep.chain with wait := none, paused := false } = e.chain := by
    rw [hchain]
    simp only [← wait_of_free hfree, ← paused_of_free hfree]
  refine ⟨asleep, hsteps, hchain, fun rs hdrives hlasts => ?_⟩
  refine ⟨?_, hposition, answer_execute_dozing, answer_closeDialog_dozing,
    answer_select_dozing, fun elapsed => ⟨answer_update_paused elapsed, ?_, ?_⟩⟩
  · have hserve := serve_dozing hrun hdrives hlasts
    rwa [dozing_start hwait hready] at hserve
  · intro hawake hfits hends
    rw [answer_update_dozing elapsed hrun hawake, if_pos hfits, if_pos hends, hwoken]
  · intro hawake hbeyond
    rw [answer_update_dozing elapsed hrun hawake, if_neg (by rw [hbeyond]; simp)]

namespace Rehearsal

/-- A chain at its first nap, which is still to come. -/
def napper : Engine Recording := (fresh table {} scene).withChain (Chain.enter {} naps)

def firstNap : Call := ⟨"Sleep", ["5"], "", "Sleep(5);", 1⟩

/-- Of these, 3 counts, then nothing while the chain is paused, then -4 and 4. -/
def disturbances : List (Request Recording) :=
  [.update 3, .closeDialog, .pause, .update 100, .select 1, .resume, .update (-4), .execute,
    .update 4]

theorem nap_outlasts_disturbances :
    (napper.isHeld = false ∧ napper.chain.position = some ⟨naps, 0⟩ ∧
      (⟨naps, 0⟩ : Position).instruction? = some (.call firstNap) ∧
      napper.table.resolve firstNap = .ok ⟨"Sleep", .exactly 1, Command.sleep⟩ ∧
      (napper.view firstNap).integer 0 = .ok 5 ∧ (∀ r ∈ disturbances, r.drives = true) ∧
      Slumber.Lasts {} 5 disturbances) ∧
    ∃ asleep : Engine Recording, (∀ left, napper.steps (left + 1) = .ok asleep) ∧
      serve disturbances asleep = .ok (asleep.dozing 5 ⟨false, 3⟩) ∧
      (asleep.dozing 5 ⟨false, 3⟩).answer (.update 2) =
        succeed (asleep.withChain napper.chain.advance).execute := by
  have hi : (⟨naps, 0⟩ : Position).instruction? = some (.call firstNap) := by decide +kernel
  have htime : (napper.view firstNap).integer 0 = .ok 5 := eq_ok_of_toOption (by decide +kernel)
  have hdrives : ∀ r ∈ disturbances, r.drives = true := by simp [disturbances, Request.drives]
  have hlasts : Slumber.Lasts {} 5 disturbances := by
    simp [disturbances, Slumber.lasts_cons, Slumber.lasts_nil, Slumber.next, Interval.contains,
      Interval.word64]
  obtain ⟨asleep, hsteps, -, hrun⟩ := sleep_lasts (e := napper) rfl rfl hi rfl rfl htime (by decide)
  obtain ⟨hserve, -, -, -, -, hframe⟩ := hrun disturbances hdrives hlasts
  exact ⟨⟨rfl, rfl, hi, rfl, htime, hdrives, hlasts⟩, asleep, hsteps, hserve,
    (hframe 2).2.1 rfl (by decide) (by decide)⟩

end Rehearsal

end Cutscene
