import Cutscene.Proofs.Interruption
import Cutscene.Proofs.Suspension

/-! The owner of a chain. A chain has one owner for all its scripts: a script that the host starts
may name one, and the chain is that owner's from then on. The end of a script takes nothing back, so
a caller finds the owner that was named last while it was parked, and its own if none was. -/

namespace Cutscene

variable {ω : Type} [World ω]

/-- The owner that a host names with a script. -/
def Request.owner? : Request ω → Option Owner
  | .run _ owner => owner
  | .runContent _ _ owner => owner
  | _ => none

/-- A turn of the engine, or of a host that does not stop the chain, with the owner that it names. A
script that is not started names none. -/
inductive Names : Option Owner → Phase ω → Phase ω → Prop where
  | round {s t : Phase ω} (round : Round s t) : Names none s t
  | accepted {e : Engine ω} {r : Request ω} {o : Opening ω} (goes : r ≠ .stop)
      (opens : e.opening r = .ok o) (accepts : o.result = .ok ()) :
      Names r.owner? (.resting e) o.phase
  | refused {e : Engine ω} {r : Request ω} {o : Opening ω} {f : Fault} (goes : r ≠ .stop)
      (opens : e.opening r = .ok o) (refuses : o.result = .error f) :
      Names none (.resting e) o.phase

/-- Turns during which more than so many callers stay parked, with the owner named last. -/
inductive Tenure (depth : Nat) (s : Phase ω) : Option Owner → Phase ω → Prop where
  | start : Tenure depth s none s
  | turn {named owner : Option Owner} {t u : Phase ω} (before : Tenure depth s named t)
      (turn : Names owner t u) (deep : depth < u.chain.depth) : Tenure depth s (owner <|> named) u

/-- A script on top of the one that stands at a position, with the owner named for it: called from
there, or started by the host. -/
inductive Engine.Nests (e : Engine ω) (p : Position) : Option Owner → Phase ω → Prop where
  | called {e' : Engine ω} {left : Nat} (calls : e.Calls p e') : Nests e p none (.running left e')
  | started {r : Request ω} {o : Opening ω} (stands : e.chain.position = some p)
      (starts : r.starts = true) (opens : e.opening r = .ok o) (accepts : o.result = .ok ()) :
      Nests e p r.owner? o.phase

/-- Whether a call leaves it open whom it means by a parameter. -/
def View.LeavesOpen (v : View) (i : Nat) : Prop :=
  v.has i = false ∨ ∃ name, v.text i = .ok name ∧ Text.isBlankText name = true

theorem View.actor_of_leavesOpen {v : View} {i : Nat} (h : v.LeavesOpen i) :
    v.actor i = v.ownerId := by
  unfold actor
  rcases h with hnone | ⟨name, htext, hblank⟩
  · simp [hnone]
  · cases hhas : v.has i with
    | false => simp
    | true => simp [htext, hblank]

theorem View.ownerId_eq_ok {v : View} {o : Owner} (h : v.owner = some o) :
    v.ownerId = .ok o.id := by
  simp [ownerId, h]

namespace Engine

variable {e : Engine ω} {p : Position} {i : Instruction} {r : Request ω} {o : Opening ω}

omit [World ω] in
theorem owner_goBack (c : Chain) : c.goBack.owner = c.owner := by
  unfold Chain.goBack
  cases hleave : c.leave? with
  | none => rfl
  | some c' =>
    obtain ⟨caller, callers, -, rfl⟩ := Chain.leave?_eq_some.mp hleave
    rfl

theorem Stride.owner {c : Chain} (h : e.Stride i c) : c.owner = e.chain.owner := by
  cases h with
  | goBack asks => exact owner_goBack e.chain
  | _ => rfl

/-- An opening that leaves a chain its script, for the owner named if the request is accepted. -/
structure Keeper (e : Engine ω) (owner : Option Owner) (o : Opening ω) : Prop where
  runs : o.phase.chain.script?.isSome = true
  accepted : o.result = .ok () → o.phase.chain.owner = (owner <|> e.chain.owner)
  refused : ∀ f, o.result = .error f → o.phase.chain.owner = e.chain.owner

omit [World ω] in
theorem keeper_starts {e' : Engine ω} {script : Script} {owner : Option Owner}
    (hchain : e'.chain = e.chain) (hrun : e.chain.script?.isSome = true) :
    e.Keeper owner (e'.starts script owner) := by
  have hsame : (e'.refusesAloud
      { cause := .depthExceeded e'.options.maxDepth script.file }).phase.chain = e.chain := hchain
  unfold starts
  split
  · exact ⟨by rwa [hsame], nofun, fun _ _ => by rw [hsame]⟩
  · refine ⟨?_, fun _ => ?_, nofun⟩
    · simp [Phase.begun, Phase.chain, Phase.engine, Chain.enter]
    · simp [Phase.begun, Phase.chain, Phase.engine, Chain.enter, hchain]

omit [World ω] in
theorem keeper_of_eq (hscript : o.phase.chain.script? = e.chain.script?)
    (howner : o.phase.chain.owner = e.chain.owner) (hrun : e.chain.script?.isSome = true) :
    e.Keeper none o :=
  ⟨by rwa [hscript], fun _ => howner, fun _ _ => howner⟩

theorem Opened.keeper (h : e.Opened r o) (hgoes : r ≠ .stop)
    (hrun : e.chain.script?.isSome = true) : e.Keeper r.owner? o := by
  cases h with
  | run found => exact keeper_starts (by simp) hrun
  | runContent parses => exact keeper_starts (by rw [foldl_report]) hrun
  | @runNothing path owner cache f missing inside =>
    have hsame : ((e.withCache cache).reportLines.refusesAloud f).phase.chain = e.chain := by
      simp [refusesAloud, refuses, Phase.chain, Phase.engine]
    refine ⟨by rwa [hsame], fun haccepts => ?_, fun _ _ => by rw [hsame]⟩
    cases haccepts
  | runNothingIdle missing outside =>
    rw [hrun] at outside
    cases outside
  | stop => exact absurd rfl hgoes
  | _ => exact keeper_of_eq rfl rfl hrun

end Engine

open Engine

variable {s t : Phase ω} {named owner : Option Owner} {depth : Nat}

theorem Round.owner_eq (h : Round s t) (hrun : s.chain.script?.isSome = true)
    (hdeep : 0 < s.chain.depth) :
    t.chain.script?.isSome = true ∧ t.chain.owner = s.chain.owner := by
  cases h with
  | halt held => exact ⟨hrun, rfl⟩
  | leave free runs ended leaves =>
    obtain ⟨caller, callers, -, rfl⟩ := Chain.leave?_eq_some.mp leaves
    exact ⟨rfl, rfl⟩
  | finish free ended alone =>
    -- the callers of a nested script keep the chain from ending
    simp [Chain.depth, alone hrun] at hdeep
  | yield free stands next => simpa using hrun
  | step free stands next ran =>
    have hstride := stride_of_step ran
    exact ⟨hstride.runs hrun, hstride.owner⟩

theorem Names.owner_eq (h : Names owner s t) (hrun : s.chain.script?.isSome = true)
    (hdeep : 0 < s.chain.depth) :
    t.chain.script?.isSome = true ∧ t.chain.owner = (owner <|> s.chain.owner) := by
  cases h with
  | round round => exact round.owner_eq hrun hdeep
  | accepted goes opens accepts =>
    have hkeeper := (opened_of_opening opens).keeper goes hrun
    exact ⟨hkeeper.runs, hkeeper.accepted accepts⟩
  | refused goes opens refuses =>
    have hkeeper := (opened_of_opening opens).keeper goes hrun
    exact ⟨hkeeper.runs, hkeeper.refused _ refuses⟩

theorem Names.undisturbed (h : Names owner s t) : Undisturbed s t := by
  cases h with
  | round round => exact ⟨none, nofun, .round round⟩
  | accepted goes opens accepts => exact ⟨_, by simpa using goes, .request opens⟩
  | refused goes opens refuses => exact ⟨_, by simpa using goes, .request opens⟩

theorem Tenure.stays (h : Tenure depth s named t) : Stays depth s t := by
  induction h with
  | start => exact .refl
  | turn before turn deep ih => exact ih.tail ⟨turn.undisturbed, deep⟩

/-- While callers stay parked, the chain runs for the owner named last, or else for its first. -/
theorem Tenure.owner_eq (h : Tenure depth s named t) (hrun : s.chain.script?.isSome = true)
    (hdeep : depth < s.chain.depth) :
    (t.chain.script?.isSome = true ∧ depth < t.chain.depth) ∧
      t.chain.owner = (named <|> s.chain.owner) := by
  induction h with
  | start => exact ⟨⟨hrun, hdeep⟩, rfl⟩
  | @turn named owner t u before turn deep ih =>
    obtain ⟨⟨hruns, hparked⟩, howner⟩ := ih
    obtain ⟨hruns', howner'⟩ := turn.owner_eq hruns (by omega)
    refine ⟨⟨hruns', deep⟩, ?_⟩
    rw [howner', howner]
    cases owner <;> rfl

theorem Engine.Nests.begins {e : Engine ω} {p : Position} (h : e.Nests p owner s) :
    (s.chain.script?.isSome = true ∧ s.chain.callers = p :: e.chain.callers) ∧
      s.chain.owner = (owner <|> e.chain.owner) := by
  cases h with
  | called calls =>
    have hcallers := calls.callers
    obtain ⟨call, target, script, -, -, henter⟩ := calls.enters
    exact ⟨⟨by rw [Phase.chain_running, henter]; rfl, hcallers⟩,
      by rw [Phase.chain_running, henter]; rfl⟩
  | started stands starts opens accepts =>
    have hgoes : ∀ {r : Request ω}, r.starts = true → r ≠ .stop := by
      rintro _ hstarts rfl
      cases hstarts
    have hrun : e.chain.script?.isSome = true := by rw [← Chain.isSome_position, stands]; rfl
    have hkeeper := (opened_of_opening opens).keeper (hgoes starts) hrun
    exact ⟨⟨hkeeper.runs, callers_of_start stands starts opens accepts⟩, hkeeper.accepted accepts⟩

theorem Undisturbed.round_of_lt (h : Undisturbed s t) (hlt : t.chain.depth < s.chain.depth) :
    Round s t := by
  obtain ⟨asked, hasked, hturn⟩ := h
  cases hturn with
  | round round => exact round
  | @request e r o opens =>
    have hstop : r ≠ .stop := fun hr => hasked (congrArg some hr)
    simp only [Chain.depth, Phase.chain_resting] at hlt
    rcases (opens_of_opening opens).1.callers hstop with hcallers | ⟨p, -, hcallers⟩
    · rw [hcallers] at hlt
      omega
    · rw [hcallers, List.length_cons] at hlt
      omega

/-- When a nested script has ended, the caller goes on for the owner named last since it was parked,
and for its own only if none was. -/
theorem caller_serves_last_named {e : Engine ω} {p : Position} {first : Option Owner}
    {r : Phase ω} (hnests : e.Nests p first r) (htenure : Tenure e.chain.depth r named s)
    (hturn : Undisturbed s t) (hends : t.chain.depth ≤ e.chain.depth) :
    (t.chain.position = some p.advanced ∧ t.chain.callers = e.chain.callers) ∧
      t.chain.owner = (named <|> first <|> e.chain.owner) ∧
      ∀ o, (named <|> first <|> e.chain.owner) = some o → ∀ call,
        (t.engine.view call).ownerId = .ok o.id ∧
          ∀ i, (t.engine.view call).LeavesOpen i → (t.engine.view call).actor i = .ok o.id := by
  obtain ⟨⟨hrun, hcallers⟩, howner⟩ := hnests.begins
  have hdeep : e.chain.depth < r.chain.depth := by simp [Chain.depth, hcallers]
  obtain ⟨⟨hruns, hparked⟩, hnamed⟩ := htenure.owner_eq hrun hdeep
  have hstart : (p :: e.chain.callers) <:+ r.chain.callers := hcallers.symm ▸ List.suffix_rfl
  have hsuffix := suffix_of_stays htenure.stays rfl hstart
  obtain ⟨-, hposition, hback⟩ := returns_of_suffix hturn hsuffix hends
  have hlast : t.chain.owner = (named <|> first <|> e.chain.owner) := by
    have hround := hturn.round_of_lt (by omega)
    rw [(hround.owner_eq hruns (by omega)).2, hnamed, howner]
  refine ⟨⟨hposition, hback⟩, hlast, fun o ho call => ?_⟩
  have hid : (t.engine.view call).ownerId = .ok o.id := View.ownerId_eq_ok (hlast.trans ho)
  exact ⟨hid, fun i hopen => (View.actor_of_leavesOpen hopen).trans hid⟩

namespace Rehearsal

def elder : Owner := ⟨.npc, "Elder"⟩

def crow : Owner := ⟨.npc, "Crow"⟩

/-- The elder's script is interrupted by one of the crow. -/
def crowed : Request Recording := .runContent "aside" "Assign($x, 1);" (some crow)

def visited : Except (Crash Recording)
    (Engine Recording × Opening Recording × Engine Recording) := do
  let e ← serve [.runContent "naps" "Sleep(5);\nSleep(7);" (some elder)] (fresh table {} scene)
  let started ← e.opening crowed
  let noted ← started.phase.engine.step ⟨aside, 0⟩ note
  return (e, started, noted)

theorem crow_visits : ∃ (e : Engine Recording) (o : Opening Recording) (s t : Phase Recording),
    (Reachable table {} (.resting e) ∧ e.chain.owner = some elder ∧
      e.chain.position = some ⟨naps, 0⟩ ∧ e.chain.depth = 0) ∧
    (e.opening crowed = .ok o ∧ o.result = .ok ()) ∧
    (Tenure 0 o.phase none s ∧ Undisturbed s t ∧ t.chain.depth ≤ 0) ∧
    t.chain.owner = some crow := by
  obtain ⟨⟨e, o, noted⟩, hrun, hglance⟩ := exists_ok (r := visited)
    (f := fun (e, o, noted) => ((o.result.toBool, e.chain.owner, noted.chain.owner),
      [glance (.resting e), glance o.phase, glance (.running 9999 noted)]))
    (b := ((true, some elder, some crow), [⟨some ⟨naps, 0⟩, [], true, none⟩,
      ⟨some ⟨aside, 0⟩, [⟨naps, 0⟩], false, some 10000⟩,
      ⟨some ⟨aside, 1⟩, [⟨naps, 0⟩], false, some 9999⟩])) (by decide +kernel)
  obtain ⟨e₁, hserve, hrun⟩ := bind_eq_ok.mp hrun
  obtain ⟨o₁, hopen, hrun⟩ := bind_eq_ok.mp hrun
  obtain ⟨noted₁, hnoted, hrun⟩ := bind_eq_ok.mp hrun
  cases hrun
  simp only [Prod.mk.injEq, List.cons.injEq] at hglance
  obtain ⟨⟨hresult, howner, hcrow⟩, hrested, hstarted, hended, -⟩ := hglance
  obtain ⟨hp, hnone, -⟩ := Glance.mk.inj hrested
  have hok : o.result = .ok () := by
    cases hres : o.result with
    | error f => simp [hres, Except.toBool] at hresult
    | ok _ => rfl
  obtain ⟨e', hphase, hposition, -, hfree⟩ := running_of_glance hstarted
  obtain ⟨_, ⟨⟩, hend, hkept, hready⟩ := running_of_glance hended
  have hstep : Names none o.phase (.running 9999 noted) := by
    rw [hphase] at hnoted ⊢
    exact .round (.step hfree hposition (by decide +kernel) hnoted)
  have hdone : Position.isAtEnd ⟨aside, 1⟩ = true := by decide +kernel
  have hruns : noted.chain.script?.isSome = true := by rw [← Chain.isSome_position, hend]; rfl
  have hleave := Chain.leave?_eq_some.mpr ⟨_, _, hkept, rfl⟩
  have hleft : Undisturbed (.running 9999 noted) (.running 9999 (noted.withChain _)) :=
    ⟨none, by simp, .round (.leave hready hruns (by simp [Chain.isAtEnd, hend, hdone]) hleave)⟩
  have htenure := Tenure.start.turn hstep (by simp [Chain.depth, hkept] : 0 < _)
  have hreach : Reachable table {} (.resting e) := ⟨scene, rfl, reaches_of_serve hserve⟩
  exact ⟨e, o, _, _, ⟨hreach, howner, hp, by simp [Chain.depth, hnone]⟩, ⟨hopen, hok⟩,
    ⟨htenure, hleft, Nat.le_refl 0⟩, hcrow⟩

/-- The elder's script goes on as one of the crow. -/
theorem naps_serve_crow : ∃ (e : Engine Recording) (o : Opening Recording)
    (s t : Phase Recording),
    (e.Nests ⟨naps, 0⟩ (some crow) o.phase ∧ Tenure e.chain.depth o.phase none s ∧
      Undisturbed s t ∧ t.chain.depth ≤ e.chain.depth) ∧
    e.chain.owner = some elder ∧ t.chain.position = some ⟨naps, 1⟩ ∧ t.chain.owner = some crow ∧
    ∀ call, (t.engine.view call).ownerId = .ok "Crow" := by
  obtain ⟨e, o, s, t, ⟨-, howner, hp, hdepth⟩, ⟨hopen, hok⟩, ⟨htenure, hturn, hends⟩, -⟩ :=
    crow_visits
  rw [← hdepth] at htenure hends
  have hnests : e.Nests ⟨naps, 0⟩ (some crow) o.phase := .started hp rfl hopen hok
  obtain ⟨⟨hposition, -⟩, hcrow, hid⟩ := caller_serves_last_named hnests htenure hturn hends
  exact ⟨e, o, s, t, ⟨hnests, htenure, hturn, hends⟩, howner, hposition, hcrow,
    fun call => (hid crow rfl call).1⟩

/-- The end of a nested script does not bring the owner of its caller back. -/
theorem owner_not_restored : ¬ ∀ (e : Engine Recording) (p : Position)
    (first named : Option Owner) (r s t : Phase Recording), Reachable table {} (.resting e) →
    e.Nests p first r → Tenure e.chain.depth r named s → Undisturbed s t →
    t.chain.depth ≤ e.chain.depth → t.chain.owner = e.chain.owner := by
  intro hrestored
  obtain ⟨e, o, s, t, ⟨hreach, howner, hp, hdepth⟩, ⟨hopen, hok⟩, ⟨htenure, hturn, hends⟩,
    hcrow⟩ := crow_visits
  rw [← hdepth] at htenure hends
  have hnests : e.Nests ⟨naps, 0⟩ (some crow) o.phase := .started hp rfl hopen hok
  have hsame := hrestored e ⟨naps, 0⟩ _ none _ s t hreach hnests htenure hturn hends
  rw [hcrow, howner] at hsame
  exact absurd hsame (by decide)

end Rehearsal

end Cutscene
