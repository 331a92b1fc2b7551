import Cutscene.Proofs.Shelf
import Cutscene.Proofs.Stride

/-! Checking before running. Where a check finds nothing on a shelf, an engine whose scripts are all
from there finds no unknown command and no line that it cannot read, and the only number of
parameters that it complains of is that of a sound given half a place. -/

namespace Cutscene

namespace Shelf

/-- A complaint at the line of a call in one of the scripts that gives a sound two parameters. -/
def HalfPlaced (shelf : Shelf) (f : Fault) : Prop :=
  f.cause = .soundParameterCount 2 ∧ ∃ script call,
    shelf.HasScript script ∧ .call call ∈ script.instructions ∧
    CommandTable.key call.name = CommandTable.key "PlaySound" ∧ call.parameters.length = 2 ∧
    f.location = some ⟨script.file, call.line⟩

/-- A fault that a clean shelf does not rule out. -/
def Allows (shelf : Shelf) (f : Fault) : Prop := f.cause.isChecked = true → shelf.HalfPlaced f

variable {shelf : Shelf} {f : Fault}

theorem allows_of_spared (h : f.cause.isChecked = false) : shelf.Allows f := by
  intro hchecked
  rw [h] at hchecked
  cases hchecked

theorem allows_located (h : f.cause.isChecked = false) (file : String) (line : Nat) :
    shelf.Allows (f.located file line) := by
  refine allows_of_spared ?_
  unfold Fault.located
  split <;> exact h

end Shelf

/-- A request that brings in nothing but texts of a shelf. -/
def Request.Within {ω : Type} (shelf : Shelf) : Request ω → Prop
  | .runContent _ source _ => shelf.HasText source
  | .setCache cache _ => cache.Within shelf
  | _ => True

namespace Engine

variable {ω : Type} {shelf : Shelf} {script : Script} {e e' : Engine ω} {f : Fault}

/-- An engine that knows the standard commands, whose scripts are all from a shelf, and which has
told nothing but what the shelf allows. -/
structure Within (shelf : Shelf) (e : Engine ω) : Prop where
  table : e.table = .standard
  cache : e.scene.cache.Within shelf
  chain : e.chain.Within shelf
  told : ∀ f ∈ e.diagnostics, shelf.Allows f

theorem within_fresh {table : CommandTable} {options : Options} {scene : Scene ω}
    (htable : table = .standard) (hcache : scene.cache.Within shelf) :
    (fresh table options scene).Within shelf :=
  ⟨htable, hcache, Chain.within_empty shelf, fun _ hf => nomatch hf⟩

theorem Within.congr (h : e.Within shelf) (hrunner : e'.toRunner = e.toRunner)
    (hcache : e'.scene.cache = e.scene.cache) : e'.Within shelf := by
  obtain ⟨htable, hwithin, hchain, htold⟩ := h
  exact ⟨by rw [hrunner, htable], by rwa [hcache], by rwa [hrunner], by rwa [hrunner]⟩

theorem Within.withChain (h : e.Within shelf) {c : Chain} (hc : c.Within shelf) :
    (e.withChain c).Within shelf :=
  { h with chain := hc }

theorem Within.withCache (h : e.Within shelf) {c : Cache} (hc : c.Within shelf) :
    (e.withCache c).Within shelf :=
  { h with cache := hc }

theorem Within.park (h : e.Within shelf) (wait : Wait) : (e.park wait).Within shelf :=
  h.withChain ⟨h.chain.runs, h.chain.callers⟩

theorem Within.report (h : e.Within shelf) (hf : shelf.Allows f) : (e.report f).Within shelf := by
  refine { h with told := fun g hg => ?_ }
  rcases Array.mem_push.mp hg with hg | rfl
  · exact h.told g hg
  · exact hf

theorem Within.reportLines (h : e.Within shelf) : e.reportLines.Within shelf := by
  rwa [reportLines_of_taken e h.cache.taken]

theorem Within.announce (h : e.Within shelf) : e.announce.Within shelf :=
  h.congr (announce_toRunner e) (announce_cache e)

theorem Within.advance (h : e.Within shelf) : e.advance.Within shelf :=
  h.withChain h.chain.advance

theorem Within.skipFaulty (h : e.Within shelf) {file : String} {call : Call}
    (hf : shelf.Allows (f.located file call.line)) : (e.skipFaulty file call f).Within shelf :=
  (h.report hf).advance

theorem Within.yield (h : e.Within shelf) (p : Position) (i : Instruction) :
    (e.yield p i).Within shelf := by
  unfold Engine.yield
  split
  · exact h
  · exact h.report (Shelf.allows_of_spared rfl)

theorem Within.follow (h : e.Within shelf) {file : String} {call : Call}
    {course : Except Fault Course}
    (hf : ∀ f, course = .error f → shelf.Allows (f.located file call.line)) :
    (e.follow file call course).Within shelf := by
  cases course with
  | error f => exact h.reportLines.skipFaulty (hf f rfl)
  | ok course =>
    cases course with
    | next => exact h.reportLines.advance
    | moved => exact h.reportLines
    | entered => exact h.reportLines.announce
    | parked => exact h.reportLines
    | stalled => exact h.reportLines.skipFaulty (Shelf.allows_of_spared rfl)

variable [World ω]

theorem Acts.within {action : Action} {course : Except Fault Course}
    (h : e.Acts action e' course) (hwithin : e.Within shelf)
    (hclean : (Check.scripts .standard shelf).isClean = true) :
    e'.Within shelf ∧ Spares course := by
  cases h with
  | proceed => exact ⟨hwithin, Spares.ok _⟩
  | perform performed => exact ⟨hwithin.congr rfl rfl, Spares.ok _⟩
  | @performAndPark effect wait world performed free =>
    have hperformed : (e.withWorld world).Within shelf := hwithin.congr rfl rfl
    exact ⟨hperformed.park wait, Spares.ok _⟩
  | park free => exact ⟨hwithin.park _, Spares.ok _⟩
  | assign => exact ⟨hwithin.congr rfl rfl, Spares.ok _⟩
  | draw => exact ⟨⟨hwithin.table, hwithin.cache, hwithin.chain, hwithin.told⟩, Spares.ok _⟩
  | @talk first last line rest world lines performed free =>
    have hperformed : (e.withWorld world).Within shelf := hwithin.congr rfl rfl
    exact ⟨hperformed.park _, Spares.ok _⟩
  | talkEmpty lines => exact ⟨hwithin, Spares.fail.mpr rfl⟩
  | jump stands marked counts =>
    exact ⟨hwithin.withChain ((hwithin.chain.countVisit _).relined _), Spares.ok _⟩
  | jumpNowhere => exact ⟨hwithin, Spares.fail.mpr rfl⟩
  | jumpLost lost => exact ⟨hwithin, Spares.fail.mpr rfl⟩
  | @run target cache entry room found inside =>
    have hfound := hwithin.cache.loadFirst hclean (e.candidates target)
    rw [found] at hfound
    have hread := hwithin.withCache hfound.within
    exact ⟨hread.withChain (hwithin.chain.enter (hfound.fromShelf entry rfl)), Spares.ok _⟩
  | @runFirst target cache entry room found lost =>
    have hfound := hwithin.cache.loadFirst hclean (e.candidates target)
    rw [found] at hfound
    have hread := hwithin.withCache hfound.within
    exact ⟨hread.withChain (hwithin.chain.enter (hfound.fromShelf entry rfl)), Spares.ok _⟩
  | @runNothing target reads f missing =>
    have hfound := hwithin.cache.loadFirst hclean (e.candidates target)
    rw [missing] at hfound
    exact ⟨hwithin.withCache hfound.within, fun g hg => hfound.spares g (Except.error.inj hg ▸ rfl)⟩
  | runTooDeep full => exact ⟨hwithin, Spares.fail.mpr rfl⟩
  | goBack => exact ⟨hwithin.withChain hwithin.chain.goBack, Spares.ok _⟩
  | stay => exact ⟨hwithin, Spares.ok _⟩
  | stall free => exact ⟨hwithin, Spares.ok _⟩
  | stallWaiting waits => exact ⟨hwithin, Spares.ok _⟩

/-- A command refuses a call that passed the check for nothing but what the shelf allows. -/
theorem allows_refused {v : View} {c : Command} (hscript : shelf.HasScript script)
    (hcall : .call v.call ∈ script.instructions)
    (hresolve : CommandTable.standard.resolve v.call = .ok c) (h : c.handler v = .error f) :
    shelf.Allows (f.located script.file v.call.line) := by
  cases hchecked : f.cause.isChecked with
  | false => exact Shelf.allows_located hchecked _ _
  | true =>
    obtain ⟨rfl, hkey, htwo⟩ := CommandTable.standard_refused hresolve h hchecked
    exact fun _ => ⟨rfl, script, v.call, hscript, hcall, hkey, htwo, rfl⟩

theorem Dispatched.within {call : Call} (h : e.Dispatched script.file call e')
    (hwithin : e.Within shelf) (hclean : (Check.scripts .standard shelf).isClean = true)
    (hscript : shelf.HasScript script) (hcall : .call call ∈ script.instructions) :
    e'.Within shelf := by
  cases h with
  | unresolved unknown =>
    -- the check has looked the same call up in the same table
    obtain ⟨command, hresolve⟩ := hscript.resolves hclean hcall
    rw [hwithin.table, hresolve] at unknown
    cases unknown
  | refused resolves refuses =>
    rw [hwithin.table] at resolves
    refine hwithin.follow fun f hf => ?_
    obtain rfl := Except.error.inj hf
    exact allows_refused (v := e.view call) hscript hcall resolves refuses
  | acted asks acts =>
    obtain ⟨hacted, hspares⟩ := acts.within hwithin hclean
    exact hacted.follow fun f hf => Shelf.allows_located (hspares f hf) _ _

theorem Within.step {p : Position} {i : Instruction} (h : e.Within shelf)
    (hclean : (Check.scripts .standard shelf).isClean = true) (hp : e.chain.position = some p)
    (hi : p.instruction? = some i) (hstep : e.step p i = .ok e') : e'.Within shelf := by
  cases i with
  | marker name literal line =>
    obtain ⟨-, rfl⟩ := step_marker_eq_ok.mp hstep
    exact h.withChain (h.chain.countVisit name).advance
  | call call =>
    have hobserved : (e.observe (.reached p.script.file p.line)).Within shelf :=
      h.congr (observe_toRunner e _) (observe_cache e _)
    exact (dispatched_of_dispatch hstep).within hobserved hclean (h.chain.stands hp)
      (List.mem_of_getElem? hi)

omit [World ω] in
theorem Within.starts (h : e.Within shelf) (hscript : shelf.HasScript script)
    (owner : Option Owner) : (e.starts script owner).phase.engine.Within shelf := by
  unfold Engine.starts
  split
  · exact h.report (Shelf.allows_of_spared rfl)
  · have hchain : Chain.Within shelf { e.chain with owner := owner <|> e.chain.owner } :=
      ⟨h.chain.runs, h.chain.callers⟩
    exact (h.withChain (hchain.enter hscript)).announce

omit [World ω] in
theorem Within.goesOn (h : e.Within shelf) : e.goesOn.phase.engine.Within shelf := by
  have hchain : Chain.Within shelf { e.chain with wait := none } :=
    ⟨h.chain.runs, h.chain.callers⟩
  exact h.withChain hchain.advance

theorem Opened.within {r : Request ω} {o : Opening ω} (h : e.Opened r o)
    (hwithin : e.Within shelf) (hclean : (Check.scripts .standard shelf).isClean = true)
    (hr : r.Within shelf) : o.phase.engine.Within shelf := by
  cases h with
  | @run path owner cache entry found =>
    have hfound := hwithin.cache.loadFirst hclean (e.candidates path)
    rw [found] at hfound
    exact (hwithin.withCache hfound.within).reportLines.starts (hfound.fromShelf entry rfl) owner
  | @runNothing path owner cache f missing inside =>
    have hfound := hwithin.cache.loadFirst hclean (e.candidates path)
    rw [missing] at hfound
    have hf : shelf.Allows f := Shelf.allows_of_spared (hfound.spares f rfl)
    exact (hwithin.withCache hfound.within).reportLines.report hf
  | @runNothingIdle path owner cache f missing outside =>
    have hfound := hwithin.cache.loadFirst hclean (e.candidates path)
    rw [missing] at hfound
    have hf : shelf.Allows f := Shelf.allows_of_spared (hfound.spares f rfl)
    have hread := (hwithin.withCache hfound.within).reportLines
    exact (hread.withChain hwithin.chain.finish).report hf
  | @runContent file source owner parsed parses =>
    subst parses
    have htext : shelf.HasText source := hr
    rw [Shelf.parse_faults_of_clean hclean htext]
    exact hwithin.starts (htext.parse _) owner
  | execute => exact hwithin
  | updateStill still => exact hwithin
  | updateFree ready free => exact hwithin
  | updateWaiting ready waits polled => exact hwithin.park _
  | updateEnded ready waits polled => exact (hwithin.park _).goesOn
  | @nextLine line rest world waits performed =>
    have hshown : (e.withWorld world).Within shelf := hwithin.congr rfl rfl
    exact hshown.park _
  | closeTalk waits => exact hwithin.goesOn
  | closeDialog waits => exact hwithin.goesOn
  | noDialog waits talks => exact hwithin
  | @select result index waits =>
    have hassigned : (e.assign result index).Within shelf := hwithin.congr rfl rfl
    exact hassigned.goesOn
  | noSelection waits => exact hwithin
  | pause runs => exact hwithin.withChain ⟨hwithin.chain.runs, hwithin.chain.callers⟩
  | pauseIdle idle => exact hwithin
  | resume => exact hwithin.withChain ⟨hwithin.chain.runs, hwithin.chain.callers⟩
  | stop => exact hwithin.withChain (Chain.within_empty shelf)
  | takeDiagnostics =>
    exact ⟨hwithin.table, hwithin.cache, hwithin.chain, fun _ hf => nomatch hf⟩
  | observe => exact ⟨hwithin.table, hwithin.cache, hwithin.chain, hwithin.told⟩
  | setWorld => exact hwithin.congr rfl rfl
  | setCache => exact hwithin.withCache hr

end Engine

open Engine

variable {ω : Type} [World ω] {shelf : Shelf} {s t : Phase ω}

theorem Round.within (h : Round s t) (hclean : (Check.scripts .standard shelf).isClean = true)
    (hwithin : s.engine.Within shelf) : t.engine.Within shelf := by
  cases h with
  | halt held => exact hwithin
  | leave free runs ended leaves => exact hwithin.withChain (hwithin.chain.leave leaves)
  | finish free ended alone => exact hwithin.withChain hwithin.chain.finish
  | yield free stands next => exact hwithin.yield _ _
  | step free stands next ran => exact hwithin.step hclean stands next ran

theorem within_of_reachesBy {options : Options} {scene : Scene ω}
    (hclean : (Check.scripts .standard shelf).isClean = true) (hcache : scene.cache.Within shelf)
    (h : ReachesBy (Request.Within shelf) (.resting (fresh .standard options scene)) s) :
    s.engine.Within shelf :=
  invariant_of_reachesBy (P := fun s => s.engine.Within shelf) h (within_fresh rfl hcache)
    (fun _ hs hround => hround.within hclean hs)
    (fun _ hs hallowed hopen => (opened_of_opening hopen).within hs hclean hallowed)

/-- Where a check finds nothing, no run over the same texts tells of an unknown command, or of a
line that cannot be read, and of a number of parameters only where a sound is given two. -/
theorem told_of_clean_shelf {options : Options} {scene : Scene ω} {f : Fault}
    (hclean : (Check.scripts .standard shelf).isClean = true) (hcache : scene.cache.Within shelf)
    (h : ReachesBy (Request.Within shelf) (.resting (fresh .standard options scene)) s)
    (hf : f ∈ s.engine.diagnostics) :
    f.code ≠ "COMMAND_UNKNOWN" ∧ ¬ "PARSE_".toList <+: f.code.toList ∧
      (f.code = "COMMAND_ARITY" → shelf.HalfPlaced f) := by
  have hallows := (within_of_reachesBy hclean hcache h).told f hf
  rw [Shelf.Allows, Cause.isChecked_eq, Cause.isCheckedCode_iff] at hallows
  have harity : shelf.HalfPlaced f → f.code = "COMMAND_ARITY" := by
    rintro ⟨hcause, -⟩
    rw [Fault.code, hcause, Cause.code]
  -- what the shelf allows has a code of its own, which rules out the other two
  refine ⟨fun hunknown => ?_, fun hparse => ?_, fun hcode => hallows (Or.inr (Or.inl hcode))⟩
  · have hcode := harity (hallows (Or.inl hunknown))
    simp [hunknown] at hcode
  · have hcode := harity (hallows (Or.inr (Or.inr hparse)))
    rw [hcode] at hparse
    revert hparse
    decide

namespace Rehearsal

/-- A bell that is given half a place, behind a jump to a label that is nowhere. -/
def bells : Shelf := [
  ("inner.txt", "Goto(nowhere);"),
  ("main.txt", "RunScript(inner.txt);\nPlaySound(bell.wav, 1);")]

def tower : Scene Recording := { world := {}, cache := { read := bells.read } }

theorem bells_ring : (Check.scripts .standard bells).isClean = true ∧
    ∃ e f, serve [.run "main.txt" none] (fresh .standard {} tower) = .ok e ∧
      f ∈ e.diagnostics ∧ f.code = "COMMAND_ARITY" := by
  have hglance : ((Check.scripts .standard bells).isClean,
      (serve [.run "main.txt" none] (fresh .standard {} tower)).toOption.map
        fun e => e.diagnostics.toList.map Fault.code) =
      (true, some ["ENGINE_LABEL_MISSING", "COMMAND_ARITY"]) := by decide +kernel
  obtain ⟨hclean, hrun⟩ := Prod.mk.inj hglance
  obtain ⟨e, hserve, hcodes⟩ := exists_ok hrun
  have hmem : "COMMAND_ARITY" ∈ e.diagnostics.toList.map Fault.code := by simp [hcodes]
  obtain ⟨f, hf, hcode⟩ := List.mem_map.mp hmem
  exact ⟨hclean, e, f, hserve, Array.mem_toList_iff.mp hf, hcode⟩

/-- A shelf that passes the check, and a run that complains of a number of parameters. -/
theorem arity_told_by_clean_shelf : (Check.scripts .standard bells).isClean = true ∧
    tower.cache.Within bells ∧
    ∃ e f, serve [.run "main.txt" none] (fresh .standard {} tower) = .ok e ∧
      f ∈ e.diagnostics ∧ f.code = "COMMAND_ARITY" := by
  obtain ⟨hclean, hring⟩ := bells_ring
  exact ⟨hclean, Cache.within_read_shelf bells, hring⟩

theorem bell_half_placed : ∃ (s : Phase Recording) (f : Fault),
    ((Check.scripts .standard bells).isClean = true ∧ tower.cache.Within bells ∧
      ReachesBy (Request.Within bells) (.resting (fresh .standard {} tower)) s ∧
      f ∈ s.engine.diagnostics) ∧
    f.code = "COMMAND_ARITY" ∧ bells.HalfPlaced f := by
  obtain ⟨hclean, e, f, hserve, hf, hcode⟩ := bells_ring
  have hcache : tower.cache.Within bells := Cache.within_read_shelf bells
  have hreach : ReachesBy (Request.Within bells) (.resting (fresh .standard {} tower))
      (.resting e) := reachesBy_of_serve (by simp [Request.Within]) hserve
  obtain ⟨-, -, hhalf⟩ := told_of_clean_shelf hclean hcache hreach hf
  exact ⟨.resting e, f, ⟨hclean, hcache, hreach, hf⟩, hcode, hhalf hcode⟩

end Rehearsal

end Cutscene
