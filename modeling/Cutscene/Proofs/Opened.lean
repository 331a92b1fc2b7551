import Cutscene.Proofs.Request

/-! What a request does at once, case by case: the phase that it opens and the answer that it gets.
Every case names what it needs, so that no later proof takes the request apart again. -/

namespace Cutscene.Engine

variable {ω : Type} [World ω]

inductive Opened (e : Engine ω) : Request ω → Opening ω → Prop where
  | run {path : String} {owner : Option Owner} {cache : Cache} {entry : Cached}
      (found : e.scene.cache.loadFirst (e.candidates path) = (cache, .ok entry)) :
      Opened e (.run path owner) ((e.withCache cache).reportLines.starts entry.script owner)
  | runNothing {path : String} {owner : Option Owner} {cache : Cache} {f : Fault}
      (missing : e.scene.cache.loadFirst (e.candidates path) = (cache, .error f))
      (inside : e.chain.script?.isSome = true) :
      Opened e (.run path owner) ((e.withCache cache).reportLines.refusesAloud f)
  | runNothingIdle {path : String} {owner : Option Owner} {cache : Cache} {f : Fault}
      (missing : e.scene.cache.loadFirst (e.candidates path) = (cache, .error f))
      (outside : e.chain.script?.isSome = false) :
      Opened e (.run path owner)
        (((e.withCache cache).reportLines.withChain e.chain.finish).refusesAloud f)
  | runContent {file source : String} {owner : Option Owner} {parsed : Script.Parsed}
      (parses : Script.parse (ScriptPath.normalize file) source = parsed) :
      Opened e (.runContent file source owner)
        ((parsed.faults.foldl report e).starts parsed.script owner)
  | execute : Opened e .execute ⟨.begun e, .ok ()⟩
  | updateStill {elapsed : Int} (still : (!e.chain.isRunning || e.chain.paused) = true) :
      Opened e (.update elapsed) e.rests
  | updateFree {elapsed : Int} (ready : (!e.chain.isRunning || e.chain.paused) = false)
      (free : e.chain.wait = none) : Opened e (.update elapsed) ⟨.begun e, .ok ()⟩
  | updateWaiting {elapsed : Int} {wait wait' : Wait}
      (ready : (!e.chain.isRunning || e.chain.paused) = false) (waits : e.chain.wait = some wait)
      (polled : wait.poll e.scene.world elapsed = .ok (wait', false)) :
      Opened e (.update elapsed) (e.park wait').rests
  | updateEnded {elapsed : Int} {wait wait' : Wait}
      (ready : (!e.chain.isRunning || e.chain.paused) = false) (waits : e.chain.wait = some wait)
      (polled : wait.poll e.scene.world elapsed = .ok (wait', true)) :
      Opened e (.update elapsed) (e.park wait').goesOn
  | nextLine {line : TalkLine} {rest : List TalkLine} {world : ω}
      (waits : e.chain.wait = some (.talk (line :: rest)))
      (performed : World.perform e.scene.world (.dialog line.text line.portrait) = .ok world) :
      Opened e .closeDialog ((e.withWorld world).park (.talk rest)).rests
  | closeTalk (waits : e.chain.wait = some (.talk [])) : Opened e .closeDialog e.goesOn
  | closeDialog (waits : e.chain.wait = some .dialog) : Opened e .closeDialog e.goesOn
  | noDialog (waits : e.chain.wait ≠ some .dialog)
      (talks : ∀ lines, e.chain.wait ≠ some (.talk lines)) :
      Opened e .closeDialog (e.refuses { cause := .noDialog })
  | select {result : String} {index : Int32} (waits : e.chain.wait = some (.selection result)) :
      Opened e (.select index) (e.assign result index).goesOn
  | noSelection {index : Int32} (waits : ∀ result, e.chain.wait ≠ some (.selection result)) :
      Opened e (.select index) (e.refuses { cause := .noSelection })
  | pause (runs : e.chain.isRunning = true) :
      Opened e .pause (e.withChain { e.chain with paused := true }).rests
  | pauseIdle (idle : e.chain.isRunning = false) : Opened e .pause e.rests
  | resume : Opened e .resume (e.withChain { e.chain with paused := false }).rests
  | stop : Opened e .stop (e.withChain {}).rests
  | takeDiagnostics : Opened e .takeDiagnostics (rests { e with diagnostics := #[] })
  | observe {observed : Bool} : Opened e (.observe observed) (rests { e with observed })
  | setWorld {world : ω} : Opened e (.setWorld world) (e.withWorld world).rests
  | setCache {cache : Cache} {taken : cache.faults = []} :
      Opened e (.setCache cache taken) (e.withCache cache).rests

variable {e : Engine ω} {o : Opening ω}

theorem opened_run {path : String} {owner : Option Owner}
    (h : e.opening (.run path owner) = .ok o) : e.Opened (.run path owner) o := by
  cases hload : e.scene.cache.loadFirst (e.candidates path) with
  | mk cache found =>
    simp only [opening, hload] at h
    cases found with
    | ok entry =>
      obtain rfl := Except.ok.inj h
      exact .run hload
    | error f =>
      obtain rfl := Except.ok.inj h
      cases hscript : e.chain.script?.isSome with
      | true => simpa [hscript] using Opened.runNothing hload hscript
      | false => simpa [hscript] using Opened.runNothingIdle hload hscript

theorem opened_update {elapsed : Int} (h : e.opening (.update elapsed) = .ok o) :
    e.Opened (.update elapsed) o := by
  simp only [opening] at h
  cases hstill : !e.chain.isRunning || e.chain.paused with
  | true =>
    simp only [hstill, if_true] at h
    obtain rfl := Except.ok.inj h
    exact .updateStill hstill
  | false =>
    simp only [hstill, Bool.false_eq_true, if_false] at h
    cases hwait : e.chain.wait with
    | none =>
      simp only [hwait] at h
      obtain rfl := Except.ok.inj h
      exact .updateFree hstill hwait
    | some wait =>
      simp only [hwait] at h
      obtain ⟨⟨wait', ended⟩, hpoll, h⟩ := bind_eq_ok.mp h
      obtain rfl := Except.ok.inj h
      cases ended with
      | true => exact .updateEnded hstill hwait hpoll
      | false => exact .updateWaiting hstill hwait hpoll

theorem opened_closeDialog (h : e.opening .closeDialog = .ok o) : e.Opened .closeDialog o := by
  simp only [opening] at h
  split at h
  · next line rest hwait =>
    obtain ⟨shown, hshow, h⟩ := bind_eq_ok.mp h
    obtain ⟨world, hworld, rfl⟩ := perform_eq_ok.mp hshow
    obtain rfl := Except.ok.inj h
    exact .nextLine hwait hworld
  · next hwait =>
    obtain rfl := Except.ok.inj h
    exact .closeTalk hwait
  · next hwait =>
    obtain rfl := Except.ok.inj h
    exact .closeDialog hwait
  · next hline hlast hdialog =>
    obtain rfl := Except.ok.inj h
    refine .noDialog hdialog fun lines => ?_
    cases lines with
    | nil => exact hlast
    | cons line rest => exact hline line rest

/-- A request opens in one of the ways listed. -/
theorem opened_of_opening {r : Request ω} (h : e.opening r = .ok o) : e.Opened r o := by
  cases r with
  | run path owner => exact opened_run h
  | runContent file source owner =>
    obtain rfl := Except.ok.inj h
    exact .runContent rfl
  | execute =>
    obtain rfl := Except.ok.inj h
    exact .execute
  | update elapsed => exact opened_update h
  | closeDialog => exact opened_closeDialog h
  | select index =>
    simp only [opening] at h
    split at h
    · next result hwait =>
      obtain rfl := Except.ok.inj h
      exact .select hwait
    · next hnone =>
      obtain rfl := Except.ok.inj h
      exact .noSelection hnone
  | pause =>
    obtain rfl := Except.ok.inj h
    cases hrun : e.chain.isRunning with
    | true => simpa [Engine.pause, hrun] using Opened.pause hrun
    | false => simpa [Engine.pause, hrun] using Opened.pauseIdle hrun
  | resume =>
    obtain rfl := Except.ok.inj h
    exact .resume
  | stop =>
    obtain rfl := Except.ok.inj h
    exact .stop
  | takeDiagnostics =>
    obtain rfl := Except.ok.inj h
    exact .takeDiagnostics
  | observe observed =>
    obtain rfl := Except.ok.inj h
    exact .observe
  | setWorld world =>
    obtain rfl := Except.ok.inj h
    exact .setWorld
  | setCache cache taken =>
    obtain rfl := Except.ok.inj h
    exact .setCache

end Cutscene.Engine
