import Cutscene.Proofs.Interruption
import Cutscene.Proofs.Soundness

/-! Starts that fail. A script that is not found, cannot be read or would be nested too deep is not
started, and the chain stays as it was. Only the diagnostics grow, and they end with the fault that
the host is told. -/

namespace Cutscene

theorem Chain.Sound.finish_eq {c : Chain} {limit slack : Nat} (h : c.Sound limit slack)
    (houtside : c.script?.isSome = false) : c.finish = c := by
  have hidle : c.isRunning = false := by
    rw [Bool.eq_false_iff, ne_eq, h.running_iff, houtside]
    exact Bool.false_ne_true
  obtain ⟨hline, -, hwait, howner, -⟩ := h.idle hidle
  have hscript : c.script? = none := by simpa using houtside
  cases c
  subst hline hscript hwait howner hidle
  rfl

namespace Engine

variable {ω : Type} [World ω] {e e' : Engine ω} {f : Fault}

theorem start_refused {script : Script} {owner : Option Owner}
    (h : e.start script owner = .ok (e', .error f)) : e' = e.report f := by
  unfold start at h
  split at h
  · obtain ⟨rfl, hf⟩ := Prod.mk.inj (Except.ok.inj h)
    rw [Except.error.inj hf]
  · obtain ⟨started, -, hok⟩ := map_eq_ok.mp h
    cases (Prod.mk.inj hok).2

omit [World ω] in
theorem failStart_eq {limit slack : Nat} (h : e.chain.Sound limit slack) (f : Fault) :
    e.failStart f = .ok (e.report f, .error f) := by
  unfold failStart
  by_cases hinside : e.chain.script?.isSome = true
  · simp only [hinside, if_true]
    rfl
  · rw [Bool.not_eq_true] at hinside
    simp only [hinside, h.finish_eq hinside, withChain_self]
    rfl

end Engine

open Engine

variable {ω : Type} [World ω]

/-- A start that fails changes nothing but the diagnostics and the cache, and the programs in the
cache only if one was found that would have been nested too deep. -/
theorem failed_start_untouched {table : CommandTable} {options : Options} {e e' : Engine ω}
    {r : Request ω} {f : Fault} (h : Reachable table options (.resting e))
    (hstart : r.starts = true) (hfail : e.answer r = .ok (e', .error f)) :
    ∃ (cache : Cache) (noted : Array Fault),
      e' = { e with
        diagnostics := (e.diagnostics ++ noted).push f
        scene := { e.scene with cache } } ∧
      ∀ path owner f', r = .run path owner →
        (e.scene.cache.loadFirst (e.candidates path)).2 = .error f' →
          f' = f ∧ cache.scripts = e.scene.cache.scripts := by
  obtain ⟨-, -, htaken⟩ := h.frame
  have hsound : e.chain.Sound options.maxDepth 0 := h.sound
  cases r with
  | run path owner =>
    simp only [answer, runScript] at hfail
    cases hload : e.scene.cache.loadFirst (e.candidates path) with
    | mk cache found =>
      rw [hload] at hfail
      cases found with
      | ok entry =>
        obtain rfl := start_refused hfail
        refine ⟨{ cache with faults := [] }, cache.faults.toArray, by rw [reportLines_eq]; rfl, ?_⟩
        rintro path' owner' f' heq hnone
        obtain ⟨rfl, rfl⟩ := Request.run.inj heq
        simp [hload] at hnone
      | error f' =>
        obtain ⟨reads, rfl⟩ := Cache.loadFirst_error hload
        dsimp only at hfail
        have hlines : (e.withCache { e.scene.cache with reads }).reportLines = _ :=
          reportLines_of_taken _ htaken
        have hsame : (e.withCache { e.scene.cache with reads }).chain.Sound options.maxDepth 0 :=
          hsound
        rw [hlines, failStart_eq hsame] at hfail
        obtain ⟨rfl, hf⟩ := Prod.mk.inj (Except.ok.inj hfail)
        obtain rfl := Except.error.inj hf
        refine ⟨{ e.scene.cache with reads }, #[], by simp [report, withCache], ?_⟩
        rintro path' owner' f'' heq hnone
        obtain ⟨rfl, rfl⟩ := Request.run.inj heq
        rw [hload] at hnone
        exact ⟨(Except.error.inj hnone).symm, rfl⟩
  | runContent file source owner =>
    obtain rfl := start_refused hfail
    refine ⟨e.scene.cache, _, by rw [foldl_report]; rfl, ?_⟩
    rintro path' owner' f' ⟨⟩
  | _ => cases hstart

namespace Rehearsal

def nap : Script := (Script.parse "nap" "Sleep(5);").script

/-- A chain that sleeps is asked for a script that is nowhere. -/
def napping : Except (Crash Recording) (Engine Recording × Engine.Answer Recording) := do
  let e ← serve [.runContent "nap" "Sleep(5);" none] (fresh table {} scene)
  let a ← e.answer (.run "nowhere" (some ⟨.npc, "Elder"⟩))
  return (e, a)

theorem sleeper_untouched : ∃ (e e' : Engine Recording) (f : Fault),
    (Reachable table {} (.resting e) ∧ e.chain.position = some ⟨nap, 0⟩ ∧ e.isHeld = true) ∧
    e.answer (.run "nowhere" (some ⟨.npc, "Elder"⟩)) = .ok (e', .error f) ∧
    ∃ cache noted,
      e' = { e with
        diagnostics := (e.diagnostics ++ noted).push f
        scene := { e.scene with cache } } ∧
      cache.scripts = e.scene.cache.scripts := by
  obtain ⟨⟨e, e', result⟩, hrun, hglance⟩ := exists_ok (r := napping)
    (f := fun (e, _, result) => (glance (.resting e), result.toBool,
      (e.scene.cache.loadFirst (e.candidates "nowhere")).2.toBool))
    (b := (⟨some ⟨nap, 0⟩, [], true, none⟩, false, false)) (by decide +kernel)
  obtain ⟨e₁, hserve, hrun⟩ := bind_eq_ok.mp hrun
  obtain ⟨a, hanswer, hrun⟩ := bind_eq_ok.mp hrun
  cases hrun
  simp only [Prod.mk.injEq, glance, Glance.mk.injEq] at hglance
  obtain ⟨⟨hposition, -, hheld, -⟩, hresult, hfound⟩ := hglance
  obtain ⟨f, rfl⟩ := exists_error hresult
  obtain ⟨f', hmissing⟩ := exists_error hfound
  have hreach : Reachable table {} (.resting e) := ⟨scene, rfl, reaches_of_serve hserve⟩
  obtain ⟨cache, noted, heq, hload⟩ := failed_start_untouched hreach rfl hanswer
  exact ⟨e, e', f, ⟨hreach, hposition, hheld⟩, hanswer, cache, noted, heq,
    (hload _ _ f' rfl hmissing).2⟩

end Rehearsal

end Cutscene
