import Cutscene.Proofs.Nesting

/-! Scripts that a host starts on top of one that runs. Such a script is left like any other: the
chain goes on behind the line at which it stood, whether that line was run or not. -/

namespace Cutscene

variable {ω : Type} [World ω]

def Request.starts : Request ω → Bool
  | .run .. => true
  | .runContent .. => true
  | _ => false

/-- The first line that was not run: the next one while a call waits, or else where it stands. -/
def Chain.unrun? (c : Chain) : Option Position :=
  if c.wait.isSome then c.position.map Position.advanced else c.position

namespace Engine

variable {e : Engine ω} {p : Position} {r : Request ω} {o : Opening ω}

omit [World ω] in
theorem callers_of_starts {e' : Engine ω} {script : Script} {owner : Option Owner}
    (hchain : e'.chain = e.chain) (hp : e.chain.position = some p)
    (hok : (e'.starts script owner).result = .ok ()) :
    (e'.starts script owner).phase.chain.callers = p :: e.chain.callers := by
  unfold starts at hok ⊢
  split at hok
  · cases hok
  · next hroom =>
    simp only [hroom, if_false, Phase.chain_begun, announce_toRunner, withChain_chain, hchain]
    exact Chain.callers_enter (c := { e.chain with owner := owner <|> e.chain.owner }) hp script

theorem callers_of_start (hp : e.chain.position = some p) (hstart : r.starts = true)
    (hopen : e.opening r = .ok o) (hok : o.result = .ok ()) :
    o.phase.chain.callers = p :: e.chain.callers := by
  cases opened_of_opening hopen with
  | run found => exact callers_of_starts (by simp) hp hok
  | runContent parses => exact callers_of_starts (by rw [foldl_report]) hp hok
  | runNothing missing inside => cases hok
  | runNothingIdle missing outside => cases hok
  | _ => cases hstart

end Engine

open Engine

/-- When a script that a host has started on top of another one ends, the chain goes on behind the
line at which the other one stood. That is the first line not yet run only where a call waited. -/
theorem resumes_behind_interruption {e : Engine ω} {p : Position} {r : Request ω} {o : Opening ω}
    {s t : Phase ω} (hp : e.chain.position = some p) (hstart : r.starts = true)
    (hopen : e.opening r = .ok o) (hok : o.result = .ok ())
    (hstays : Stays e.chain.depth o.phase s) (hturn : Undisturbed s t)
    (hends : t.chain.depth ≤ e.chain.depth) :
    t.chain.position = some p.advanced ∧ t.chain.callers = e.chain.callers ∧
      (t.chain.position = e.chain.unrun? ↔ e.chain.wait.isSome = true) := by
  have hstarted : (p :: e.chain.callers) <:+ o.phase.chain.callers :=
    (callers_of_start hp hstart hopen hok).symm ▸ List.suffix_rfl
  have hsuffix := suffix_of_stays hstays rfl hstarted
  obtain ⟨-, hposition, hcallers⟩ := returns_of_suffix hturn hsuffix hends
  refine ⟨hposition, hcallers, ?_⟩
  have hne : p.advanced ≠ p := fun h => Nat.succ_ne_self _ (congrArg Position.line h)
  rw [hposition, Chain.unrun?, hp]
  split
  · next hwait => simp [hwait]
  · next hwait => simp [hwait, hne]

namespace Rehearsal

/-- Three errands for an engine that yields after every one. -/
def errands : Request Recording :=
  .runContent "errands" "Assign($a, 1);\nAssign($b, 1);\nAssign($c, 1);" none

def interruption : Request Recording := .runContent "aside" "Assign($x, 1);" none

def aside : Script := (Script.parse "aside" "Assign($x, 1);").script

def yielded : Script :=
  (Script.parse "errands" "Assign($a, 1);\nAssign($b, 1);\nAssign($c, 1);").script

def note : Instruction := .call ⟨"Assign", ["$x", "1"], "", "Assign($x, 1);", 1⟩

def interrupted : Except (Crash Recording)
    (Engine Recording × Opening Recording × Engine Recording) := do
  let (e, _) ← (fresh table { maxSteps := 1 } scene).answer errands
  let started ← e.opening interruption
  let noted ← started.phase.engine.step ⟨aside, 0⟩ note
  return (e, started, noted)

theorem interruption_resumes_behind : ∃ (e : Engine Recording) (p : Position)
    (o : Opening Recording) (s t : Phase Recording),
    (e.chain.position = some p ∧ e.opening interruption = .ok o ∧ o.result = .ok () ∧
      Stays e.chain.depth o.phase s ∧ Undisturbed s t ∧ t.chain.depth ≤ e.chain.depth) ∧
    t.chain.position = some p.advanced ∧ t.chain.callers = e.chain.callers ∧
      (t.chain.position = e.chain.unrun? ↔ e.chain.wait.isSome = true) := by
  obtain ⟨⟨e, o, noted⟩, hrun, hglance⟩ := exists_ok (r := interrupted)
    (f := fun (e, o, noted) =>
      (o.result.toBool, [glance (.resting e), glance o.phase, glance (.running 0 noted)]))
    (b := (true, [⟨some ⟨yielded, 1⟩, [], false, none⟩,
      ⟨some ⟨aside, 0⟩, [⟨yielded, 1⟩], false, some 1⟩,
      ⟨some ⟨aside, 1⟩, [⟨yielded, 1⟩], false, some 0⟩])) (by decide +kernel)
  obtain ⟨⟨e₁, result₁⟩, hfirst, hrun⟩ := bind_eq_ok.mp hrun
  obtain ⟨o₁, hopen, hrun⟩ := bind_eq_ok.mp hrun
  obtain ⟨noted₁, hnoted, hrun⟩ := bind_eq_ok.mp hrun
  cases hrun
  simp only [Prod.mk.injEq, List.cons.injEq] at hglance
  obtain ⟨hresult, hrested, hstarted, hended, -⟩ := hglance
  obtain ⟨hp, hnone, -⟩ := Glance.mk.inj hrested
  have hok : o.result = .ok () := by
    cases hres : o.result with
    | error f => simp [hres, Except.toBool] at hresult
    | ok _ => rfl
  obtain ⟨e', hphase, hposition, -, hfree⟩ := running_of_glance hstarted
  obtain ⟨_, ⟨⟩, hend, hkept, hready⟩ := running_of_glance hended
  have hstep : Undisturbed o.phase (.running 0 noted) := by
    rw [hphase] at hnoted ⊢
    exact ⟨none, by simp, .round (.step hfree hposition (by decide +kernel) hnoted)⟩
  have hstays : Stays e.chain.depth o.phase (.running 0 noted) :=
    .single ⟨hstep, by simp [Chain.depth, hnone, hkept]⟩
  have hdone : Position.isAtEnd ⟨aside, 1⟩ = true := by decide +kernel
  have hruns : noted.chain.script?.isSome = true := by rw [← Chain.isSome_position, hend]; rfl
  have hleave := Chain.leave?_eq_some.mpr ⟨_, _, hkept, rfl⟩
  have hleft : Undisturbed (.running 0 noted) (.running 0 (noted.withChain _)) :=
    ⟨none, by simp, .round (.leave hready hruns (by simp [Chain.isAtEnd, hend, hdone]) hleave)⟩
  have hends : _ ≤ e.chain.depth := Nat.zero_le _
  exact ⟨e, _, o, _, _, ⟨hp, hopen, hok, hstays, hleft, hends⟩,
    resumes_behind_interruption hp rfl hopen hok hstays hleft hends⟩

def outcome : Except (Crash Recording)
    (Engine Recording × Engine.Answer Recording × Engine Recording) := do
  let (e, _) ← (fresh table { maxSteps := 1 } scene).answer errands
  let (e', result) ← e.answer interruption
  let (e'', _) ← e'.answer .execute
  return (e, (e', result), e'')

/-- The second errand is never run. -/
theorem interruption_skips_errand : ∃ e e' e'' : Engine Recording,
    ((∃ result, (fresh table { maxSteps := 1 } scene).answer errands = .ok (e, result)) ∧
      glance (.resting e) = ⟨some ⟨yielded, 1⟩, [], false, none⟩) ∧
    (e.answer interruption = .ok (e', .ok ()) ∧
      glance (.resting e') = ⟨some ⟨yielded, 2⟩, [], false, none⟩) ∧
    ((∃ result, e'.answer .execute = .ok (e'', result)) ∧ e''.chain.isRunning = false ∧
      e''.scene.world.vars = [("a", 1), ("c", 1), ("x", 1)]) := by
  obtain ⟨⟨e, ⟨e', result⟩, e''⟩, hrun, hspots⟩ := exists_ok (r := outcome)
    (f := fun (e, (e', result), e'') =>
      ([glance (.resting e), glance (.resting e')], result.toBool, e''.chain.isRunning,
        e''.scene.world.vars))
    (b := ([⟨some ⟨yielded, 1⟩, [], false, none⟩, ⟨some ⟨yielded, 2⟩, [], false, none⟩],
      true, false, [("a", 1), ("c", 1), ("x", 1)])) (by decide +kernel)
  obtain ⟨⟨e₁, result₁⟩, hfirst, hrun⟩ := bind_eq_ok.mp hrun
  obtain ⟨⟨e₂, result₂⟩, hsecond, hrun⟩ := bind_eq_ok.mp hrun
  obtain ⟨⟨e₃, result₃⟩, hthird, hrun⟩ := bind_eq_ok.mp hrun
  cases hrun
  simp only [Prod.mk.injEq, List.cons.injEq] at hspots
  obtain ⟨⟨hspot, hspot', -⟩, hok, hended, hvars⟩ := hspots
  cases result with
  | error f => cases hok
  | ok _ => exact ⟨e, e', e'', ⟨⟨_, hfirst⟩, hspot⟩, ⟨hsecond, hspot'⟩, ⟨_, hthird⟩, hended, hvars⟩

end Rehearsal

end Cutscene
