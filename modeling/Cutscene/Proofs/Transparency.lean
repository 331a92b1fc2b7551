import Cutscene.Proofs.Alongside
import Cutscene.Proofs.Duration

/-! Transparent calls. A chain that runs a script with a call in it, and a chain that runs the lines
of the other script in place of the call, go side by side: the first takes a step more, into the
script that is called, and comes out of it again by itself. Nothing that shows tells the two apart. -/

namespace Cutscene

open Engine

namespace Engine

variable {ω : Type} [World ω]

/-- Whether an instruction calls a script while as many calls are open as may be. -/
def isTooDeep (e : Engine ω) : Instruction → Bool
  | .marker .. => false
  | .call c => match e.table.resolve c with
    | .error _ => false
    | .ok command => match command.handler (e.view c) with
      | .ok (.run _) => e.options.maxDepth < e.chain.depth + 1
      | _ => false

/-- Whether a run of so many steps comes to rest before they are used up, and no call in it is too
deep. -/
def staysWithin : Nat → Engine ω → Bool
  | 0, e => e.ready.2.isNone
  | n + 1, e => match e.ready with
    | (_, none) => true
    | (e, some (p, i)) => !e.isTooDeep i && match e.step p i with
      | .ok e => staysWithin n e
      | .error _ => true

variable {e e' : Engine ω} {n : Nat} {p : Position} {i : Instruction}

theorem staysWithin_congr (h : e.ready = e'.ready) : e.staysWithin n = e'.staysWithin n := by
  cases n <;> simp only [staysWithin, h]

theorem staysWithin_succ (h : e.ready = (e, some (p, i))) (hwithin : e.staysWithin (n + 1) = true) :
    e.isTooDeep i = false ∧ ∀ e', e.step p i = .ok e' → e'.staysWithin n = true := by
  simp only [staysWithin, h, Bool.and_eq_true, Bool.not_eq_true'] at hwithin
  refine ⟨hwithin.1, fun e' hstep => ?_⟩
  simpa only [hstep] using hwithin.2

theorem room_of_asks {call : Call} {target : String} (hasks : e.Asks call (.run target))
    (hroom : e.isTooDeep (.call call) = false) : e.chain.depth + 1 ≤ e.options.maxDepth := by
  obtain ⟨command, hresolves, hasks⟩ := hasks
  simpa [isTooDeep, hresolves, hasks] using hroom

end Engine

def Phase.staysWithin {ω : Type} [World ω] : Phase ω → Bool
  | resting _ => true
  | running left e => e.staysWithin left

namespace Inlining

variable {x : Inlining} {ω : Type} {e e' : Engine ω}

theorem Along.withWorld (h : x.Along e e') (world : ω) :
    x.Along (e.withWorld world) (e'.withWorld world) :=
  h.of_kin (h.toKin.withWorld world) rfl rfl

theorem Along.withPaused (h : x.Along e e') (paused : Bool) :
    x.Along (e.withChain { e.chain with paused }) (e'.withChain { e'.chain with paused }) :=
  ⟨h.withChain h.isRunning h.wait rfl h.owner h.visits, h.places⟩

theorem Along.finish (h : x.Along e e')
    (hparked : List.Forall₂ (x.Beside true) e.chain.callers e'.chain.callers) :
    x.Along (e.withChain e.chain.finish) (e'.withChain e'.chain.finish) :=
  ⟨h.withChain rfl rfl h.paused rfl h.visits, .idle hparked⟩

/-- What becomes of two chains of which the first one is at the end of its script. It is the script
that is called, which the first chain leaves for the line behind the inlined call, where the second
one is; or both chains leave their scripts; or there is nothing to go back to. -/
inductive Leaves (x : Inlining) (e e' : Engine ω) : Prop where
  | inner {c : Chain} (runs : e.chain.script?.isSome = true) (leaves : e.chain.leave? = some c)
      (along : x.Along (e.withChain c) e') : Leaves x e e'
  | both {c c' : Chain} (runs : e.chain.script?.isSome = true)
      (runs' : e'.chain.script?.isSome = true) (ended' : e'.chain.isAtEnd = true)
      (leaves : e.chain.leave? = some c) (leaves' : e'.chain.leave? = some c')
      (along : x.Along (e.withChain c) (e'.withChain c')) : Leaves x e e'
  | none (ended' : e'.chain.isAtEnd = true)
      (alone : e.chain.script?.isSome = true → e.chain.callers = [])
      (alone' : e'.chain.script?.isSome = true → e'.chain.callers = [])
      (parked : List.Forall₂ (x.Beside true) e.chain.callers e'.chain.callers) : Leaves x e e'

/-- Without a script both chains have nothing to go back to. -/
theorem Along.leaves_of_lost (h : x.Along e e') (hp : e.chain.position = none) :
    x.Leaves e e' := by
  have hplaces := h.places
  rw [hp] at hplaces
  generalize hp' : e'.chain.position = position' at hplaces
  cases hplaces with
  | idle parked =>
    have hlost : ∀ {c : Chain}, c.position = none → c.script?.isSome = true → c.callers = [] := by
      intro c hc hruns
      rw [Chain.position_eq_none.mp hc] at hruns
      cases hruns
    exact .none (by simp [Chain.isAtEnd, hp']) (hlost hp) (hlost hp') parked

theorem Along.leaves (h : x.Along e e') (hfree : e.chain.wait = none)
    (hend : e.chain.isAtEnd = true) : x.Leaves e e' := by
  cases hp : e.chain.position with
  | none => exact h.leaves_of_lost hp
  | some p =>
    have hruns : ∀ {c : Chain} {q : Position}, c.position = some q → c.script?.isSome = true :=
      fun hq => Chain.isSome_position.symm.trans (by rw [hq]; rfl)
    have hnone : p.instruction? = none :=
      Position.isAtEnd_iff.mp (by simpa [Chain.isAtEnd, hp] using hend)
    have hplaces := h.places
    rw [hp, hfree] at hplaces
    rcases hplaces.cases_end hnone with ⟨rest, hcallers, hbehind⟩ | ⟨p', hp', hnone', hparked⟩
    · refine .inner (hruns hp) (Chain.leave?_cons hcallers) ⟨h.toKin.of_outward rfl rfl, ?_⟩
      have hwait : (e.chain.behind ⟨x.outer, x.line⟩ rest).wait = none := hfree
      simp only [withChain_chain, hwait]
      exact hbehind
    · have hend' : e'.chain.isAtEnd = true := by
        simpa [Chain.isAtEnd, hp'] using Position.isAtEnd_iff.mpr hnone'
      have hparked' := hparked
      generalize hc : e.chain.callers = callers at hparked
      generalize hc' : e'.chain.callers = callers' at hparked
      cases hparked with
      | nil => exact .none hend' (fun _ => hc) (fun _ => hc') hparked'
      | @cons caller caller' rest rest' hcaller hrest =>
        refine .both (hruns hp) (hruns hp') hend' (Chain.leave?_cons hc) (Chain.leave?_cons hc')
          ⟨h.withChain h.isRunning h.wait h.paused h.owner h.visits, ?_⟩
        have hwait : (e.chain.behind caller rest).wait = none := hfree
        simp only [withChain_chain, hwait]
        exact .beside hcaller.advanced hrest

theorem Along.released (h : x.Along e e') (hwaits : e.chain.wait.isSome = true) :
    x.Poised (e.withChain { e.chain with wait := none })
      (e'.withChain { e'.chain with wait := none }) := by
  have hplaces := h.places
  rw [hwaits] at hplaces
  exact ⟨h.withChain h.isRunning rfl h.paused h.owner h.visits, rfl, hplaces⟩

variable (x) in
/-- Requests that open the same for both engines. -/
inductive Opens : Opening ω → Opening ω → Prop where
  | rests {e e' : Engine ω} (along : x.Along e e') (result : Except Fault Unit) :
      Opens ⟨.resting e, result⟩ ⟨.resting e', result⟩
  | begins {e e' : Engine ω} (along : x.Along e e') (result : Except Fault Unit) :
      Opens ⟨.begun e, result⟩ ⟨.begun e', result⟩

theorem Along.goesOn (h : x.Along e e') (hwaits : e.chain.wait.isSome = true) :
    x.Opens e.goesOn e'.goesOn :=
  .begins (h.released hwaits).advance _

theorem Kin.along (h : x.Kin e e') (hchain : e'.chain = e.chain) : x.Along e e' := by
  have hparked : List.Forall₂ (x.Beside true) e.chain.callers e.chain.callers :=
    List.forall₂_same.mpr fun q _ => .same q
  refine ⟨h, ?_⟩
  rw [hchain]
  cases e.chain.position with
  | none => exact .idle hparked
  | some p => exact .beside (.same p) hparked

/-- The script with the call and the script with the lines in its place start alike. -/
theorem Kin.starts (h : x.Kin e e') (hchain : e'.chain = e.chain) (owner : Option Owner) :
    x.Opens (e.starts x.outer owner) (e'.starts x.inlined owner) := by
  have hdepth : e'.nextDepth = e.nextDepth := by simp only [nextDepth, hchain]
  unfold Engine.starts
  rw [h.options, hdepth, hchain]
  split
  · exact .rests ((h.along hchain).of_kin (h.report _ _) rfl rfl) _
  · have hparked (callers : List Position) : List.Forall₂ (x.Beside true) callers callers :=
      List.forall₂_same.mpr fun q _ => .same q
    let chain : Chain := { e.chain with owner := owner <|> e.chain.owner }
    have hentered : x.Along (e.withChain (chain.enter x.outer))
        (e'.withChain (chain.enter x.inlined)) :=
      ⟨h.withChain rfl rfl rfl rfl rfl, .beside Found.inlined.beside (hparked _)⟩
    exact .begins hentered.announce _

section Runs

variable [World ω]

/-- Where the first chain stands at an instruction, it is the inlined call, which it runs alone, or
both chains run it. -/
theorem Along.run_instruction {p : Position} {i : Instruction} (h : x.Along e e')
    (hheld : e.isHeld = false) (hp : e.chain.position = some p) (hi : p.instruction? = some i)
    (hroom : e.isTooDeep i = false) :
    (∃ b, e.step p i = .ok b ∧ x.Along b e') ∨
      ∃ p', e'.chain.position = some p' ∧ p'.instruction? = some i ∧
        Agree x.Along (e.step p i) (e'.step p' i) := by
  have hfree := wait_of_free hheld
  have hplaces := h.places
  rw [hp, hfree] at hplaces
  rcases hplaces.cases_instruction hi with ⟨rfl, hp', hparked⟩ | ⟨p', hp', hi', hbusy, hmay⟩
  · left
    obtain rfl : i = .call x.call := Option.some.inj (hi.symm.trans outer_at_line)
    exact h.enter_call hheld hp hp' hparked (room_of_asks (asks_call h.standard) hroom)
  · right
    have hpoised : x.Poised e e' := by
      refine ⟨h.toKin, hfree, ?_⟩
      rw [hp, hp']
      exact hbusy
    refine ⟨p', hp', hi', hpoised.step (hmay.imp id ?_)⟩
    rintro ⟨hbeside, hparked⟩
    exact ⟨hpoised, hp, hp', hbeside, hparked⟩

/-- Runs that go side by side end side by side. The second one needs no more steps. -/
theorem Along.steps {n n' : Nat} (h : x.Along e e') (hn : n ≤ n')
    (hwithin : e.staysWithin n = true) : Agree x.Along (e.steps n) (e'.steps n') := by
  -- on the rounds that the first engine may still need
  induction hm : (Phase.running n e).effort using Nat.strongRecOn generalizing n n' e e' with
  | ind m ih =>
    cases hheld : e.isHeld with
    | true =>
      have hheld' : e'.isHeld = true := h.isHeld.trans hheld
      rw [steps_of_held hheld, steps_of_held hheld']
      exact .ok h
    | false =>
      have hheld' : e'.isHeld = false := h.isHeld.trans hheld
      rcases instruction_or_end e with ⟨p, i, hp, hi⟩ | hend
      · have hready := ready_of_inside hheld hp hi
        cases n with
        | zero =>
          rw [staysWithin, hready] at hwithin
          cases hwithin
        | succ n =>
          obtain ⟨hroom, hrest⟩ := staysWithin_succ hready hwithin
          have hround : ∀ b, e.step p i = .ok b → Round (.running (n + 1) e) (.running n b) :=
            fun b hstep => .step hheld hp hi hstep
          rcases h.run_instruction hheld hp hi hroom with ⟨b, hstep, hb⟩ | ⟨p', hp', hi', hagree⟩
          · -- the first chain enters the script that is called; the second one keeps its steps
            simp only [Engine.steps, hready, hstep, ok_bind]
            exact ih _ (hm ▸ (hround b hstep).effort_lt) hb (Nat.le_of_succ_le hn)
              (hrest b hstep) rfl
          · obtain ⟨k, rfl⟩ := Nat.exists_eq_add_of_le' (Nat.le_trans (Nat.succ_pos n) hn)
            have hk : n ≤ k := Nat.le_of_succ_le_succ hn
            simp only [Engine.steps, hready, ready_of_inside hheld' hp' hi']
            generalize e.step p i = ran at hagree hround hrest
            generalize e'.step p' i = ran' at hagree
            cases hagree with
            | error crash => exact .error crash
            | ok hnext => exact ih _ (hm ▸ (hround _ rfl).effort_lt) hnext hk (hrest _ rfl) rfl
      · cases h.leaves (wait_of_free hheld) hend with
        | @inner c runs leaves along =>
          -- the first chain comes out of the script that is called, without a step
          have hround : Round (.running n e) (.running n (e.withChain c)) :=
            .leave hheld runs hend leaves
          have hready := ready_leave hheld runs hend leaves
          rw [steps_congr hready]
          exact ih _ (hm ▸ hround.effort_lt) along hn (staysWithin_congr hready ▸ hwithin) rfl
        | @both c c' runs runs' ended' leaves leaves' along =>
          have hround : Round (.running n e) (.running n (e.withChain c)) :=
            .leave hheld runs hend leaves
          have hready := ready_leave hheld runs hend leaves
          rw [steps_congr hready, steps_congr (ready_leave hheld' runs' ended' leaves')]
          exact ih _ (hm ▸ hround.effort_lt) along hn (staysWithin_congr hready ▸ hwithin) rfl
        | none ended' alone alone' parked =>
          rw [steps_of_ready_none (ready_finish hheld hend alone),
            steps_of_ready_none (ready_finish hheld' ended' alone')]
          exact .ok (h.finish parked)

theorem Along.park (h : x.Along e e') (hwaits : e.chain.wait.isSome = true) (wait : Wait) :
    x.Along (e.park wait) (e'.park wait) :=
  (h.released hwaits).park wait

theorem Along.opens_update (h : x.Along e e') (elapsed : Int) :
    Agree x.Opens (e.opening (.update elapsed)) (e'.opening (.update elapsed)) := by
  simp only [Engine.opening, h.isRunning, h.paused, h.wait, h.world]
  split
  · exact .ok (.rests h _)
  · cases hwait : e.chain.wait with
    | none => exact .ok (.begins h _)
    | some wait =>
      have hwaits : e.chain.wait.isSome = true := by rw [hwait, Option.isSome_some]
      dsimp only
      cases wait.poll e.scene.world elapsed with
      | error crash => exact .error crash
      | ok polled =>
        obtain ⟨wait', ended⟩ := polled
        have hparked := h.park hwaits wait'
        cases ended with
        | true => exact .ok (hparked.goesOn rfl)
        | false => exact .ok (.rests hparked _)

theorem Along.opens_closeDialog (h : x.Along e e') :
    Agree x.Opens (e.opening .closeDialog) (e'.opening .closeDialog) := by
  simp only [Engine.opening, h.wait]
  cases hwait : e.chain.wait with
  | none => exact .ok (.rests h _)
  | some wait =>
    have hwaits : e.chain.wait.isSome = true := by rw [hwait, Option.isSome_some]
    cases wait with
    | dialog => exact .ok (h.goesOn hwaits)
    | talk lines =>
      cases lines with
      | nil => exact .ok (h.goesOn hwaits)
      | cons line rest =>
        have hshown : Agree (fun b b' => x.Along (b.park (.talk rest)) (b'.park (.talk rest)))
            (e.perform (.dialog line.text line.portrait))
            (e'.perform (.dialog line.text line.portrait)) :=
          agree_perform h.world (fun world => (h.withWorld world).park hwaits _) _
        exact hshown.bind fun _ _ hnext => .ok (.rests hnext _)
    | _ => exact .ok (.rests h _)

theorem Along.opens_select (h : x.Along e e') (index : Int32) :
    Agree x.Opens (e.opening (.select index)) (e'.opening (.select index)) := by
  simp only [Engine.opening, h.wait]
  cases hwait : e.chain.wait with
  | none => exact .ok (.rests h _)
  | some wait =>
    have hwaits : e.chain.wait.isSome = true := by rw [hwait, Option.isSome_some]
    cases wait with
    | selection result =>
      simp only [Engine.assign, h.world]
      exact .ok ((h.withWorld _).goesOn hwaits)
    | _ => exact .ok (.rests h _)

theorem Along.opening {r : Request ω} (h : x.Along e e') (hdrives : r.drives = true) :
    Agree x.Opens (e.opening r) (e'.opening r) := by
  cases r with
  | execute => exact .ok (.begins h _)
  | update elapsed => exact h.opens_update elapsed
  | closeDialog => exact h.opens_closeDialog
  | select index => exact h.opens_select index
  | pause =>
    refine .ok (.rests ?_ _)
    unfold Engine.pause
    by_cases hrun : e.chain.isRunning = true
    · rw [if_pos hrun, if_pos (h.isRunning.trans hrun)]
      exact h.withPaused true
    · rw [if_neg hrun, if_neg (h.isRunning ▸ hrun)]
      exact h
  | resume => exact .ok (.rests (h.withPaused false) _)
  | _ => cases hdrives

end Runs

end Inlining

/-- Whether neither limit is met in what a request opens, and in what is asked for after it. -/
def Opening.staysWithin {ω : Type} [World ω] : List (Request ω) → Opening ω → Bool
  | [], o => o.phase.staysWithin
  | r :: rs, o => o.phase.staysWithin && match o.answer with
    | .ok (e, _) => match e.opening r with
      | .ok o => staysWithin rs o
      | .error _ => true
    | .error _ => true

/-- What shows once a request is answered. -/
structure Showing (ω : Type) extends Outward ω where
  status : Status
  result : Except Fault Unit

namespace Engine

variable {ω : Type} [World ω]

def Answer.showing (answer : Answer ω) : Showing ω :=
  { answer.1.outward with status := answer.1.chain.status, result := answer.2 }

/-- What shows after an answer, and after each request from then on. A crash ends it. -/
def showings : List (Request ω) → Except (Crash ω) (Answer ω) →
    List (Except (Crash ω) (Showing ω))
  | _, .error crash => [.error crash]
  | [], .ok answer => [.ok answer.showing]
  | r :: rs, .ok answer => .ok answer.showing :: showings rs (answer.1.answer r)

end Engine

namespace Inlining

variable {x : Inlining} {ω : Type} [World ω] {e e' : Engine ω} {o o' : Opening ω}

omit [World ω] in
theorem Along.showing (h : x.Along e e') (result : Except Fault Unit) :
    Answer.showing (e', result) = Answer.showing (e, result) := by
  have hstatus : e'.chain.status = e.chain.status := by
    simp only [Chain.status, h.isRunning, h.paused, h.wait]
  simp only [Answer.showing, h.outward, hstatus]

/-- Both runs crash alike, or the same answer is given at corresponding places. -/
theorem Opens.cases_answer (h : x.Opens o o') (hwithin : o.phase.staysWithin = true) :
    (∃ crash, o.answer = .error crash ∧ o'.answer = .error crash) ∨
      ∃ e e' result, o.answer = .ok (e, result) ∧ o'.answer = .ok (e', result) ∧ x.Along e e' := by
  cases h with
  | rests along result => exact Or.inr ⟨_, _, result, rfl, rfl, along⟩
  | @begins e e' along result =>
    have hsteps := Nat.le_of_eq (congrArg Options.maxSteps along.options.symm)
    have hagree : Agree x.Along e.execute e'.execute := along.steps hsteps hwithin
    simp only [Opening.answer, Phase.outcome_begun]
    generalize e.execute = ran at hagree
    generalize e'.execute = ran' at hagree
    cases hagree with
    | error crash => exact Or.inl ⟨crash, rfl, rfl⟩
    | ok hdone => exact Or.inr ⟨_, _, result, rfl, rfl, hdone⟩

theorem Opens.showings {rs : List (Request ω)} (h : x.Opens o o')
    (hdrives : ∀ r ∈ rs, r.drives = true) (hwithin : o.staysWithin rs = true) :
    showings rs o'.answer = showings rs o.answer := by
  induction rs generalizing o o' with
  | nil =>
    rcases h.cases_answer hwithin with ⟨crash, hcrash, hcrash'⟩ | ⟨e, e', result, ho, ho', halong⟩
    · rw [hcrash, hcrash']
    · simp only [ho, ho', Engine.showings, halong.showing]
  | cons r rs ih =>
    obtain ⟨hphase, hrest⟩ := Bool.and_eq_true_iff.mp hwithin
    rcases h.cases_answer hphase with ⟨crash, hcrash, hcrash'⟩ | ⟨e, e', result, ho, ho', halong⟩
    · rw [hcrash, hcrash']
    · simp only [ho] at hrest
      have hopening := halong.opening (hdrives r List.mem_cons_self)
      have hlater : showings rs (e'.answer r) = showings rs (e.answer r) := by
        rw [answer_eq_opening, answer_eq_opening]
        generalize e.opening r = opening at hopening hrest
        generalize e'.opening r = opening' at hopening
        cases hopening with
        | error crash => rfl
        | ok hopens => exact ih hopens (fun q hq => hdrives q (List.mem_cons_of_mem r hq)) hrest
      simp only [ho, ho', Engine.showings, halong.showing, hlater]

end Inlining

open Inlining in
/-- A chain that runs a script with a call in it shows nothing else than a chain that runs the lines
of the other script in place of the call, whatever drives them both, as long as the first one has
steps and room for calls. -/
theorem inlining_invisible {ω : Type} [World ω] (x : Inlining) {e : Engine ω} {cache : Cache}
    (hstandard : e.table = .standard)
    (hshares : x.Shares e.scene.cache cache) (owner : Option Owner) {requests : List (Request ω)}
    (hdrives : ∀ r ∈ requests, r.drives = true)
    (hwithin : (e.starts x.outer owner).staysWithin requests = true) :
    showings requests ((e.withCache cache).start x.inlined owner) =
      showings requests (e.start x.outer owner) := by
  have hkin : x.Kin e (e.withCache cache) := ⟨hstandard, rfl, hshares⟩
  have hopens := hkin.starts rfl owner
  rw [← answer_starts, ← answer_starts]
  exact hopens.showings hdrives hwithin

namespace Rehearsal

def market : Script :=
  (Script.parse "market" "@Again:\nRunScript(shop/greet);\nGoto @Again;").script

/-- The greeting at a market, over and over. -/
def greeting : Inlining where
  file := "market"
  before := market.instructions.take 1
  call := ⟨"RunScript", ["shop/greet"], "", "RunScript(shop/greet);", 2⟩
  behind := market.instructions.drop 2
  inner := (Script.parse "shop/greet" "Say(Hello);").script
  target := "shop/greet"
  runs := by decide
  names := rfl
  constant value := Variable.substitute_of_plain value (by decide)
  placed := by decide
  steady := by decide +kernel

def shop : Scene Recording where
  world := {}
  cache := { read := fun path =>
    if path = "shop/greet" then .ok "Say(Hello);" else .error { cause := .scriptUnavailable path } }

theorem greeting_inlined :
    let e : Engine Recording := fresh .standard {} shop
    let requests : List (Request Recording) := [.closeDialog]
    greeting.outer = market ∧ (e.starts market none).staysWithin requests = true ∧
      showings requests (e.start greeting.inlined none) =
        showings requests (e.start market none) := by
  intro e requests
  have houter : greeting.outer = market := by decide +kernel
  have hwithin : (e.starts greeting.outer none).staysWithin requests = true := by decide +kernel
  obtain ⟨inner, hfinds, hinner⟩ := exists_ok (f := id) (b := greeting.inner)
    (r := shop.cache.finds (ScriptPath.normalize (ScriptPath.normalize "shop/greet")))
    (by decide +kernel)
  have htable (table : CommandTable) : (fresh table {} shop).table = table := rfl
  have hshares : greeting.Shares e.scene.cache e.scene.cache :=
    .of_finds (hfinds.trans (congrArg Except.ok hinner))
  have hsame := inlining_invisible greeting (htable _) hshares none (by decide)
    hwithin
  rw [houter] at hwithin hsame
  exact ⟨houter, hwithin, hsame⟩

end Rehearsal

end Cutscene
