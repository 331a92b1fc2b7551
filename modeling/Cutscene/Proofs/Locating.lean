import Cutscene.Proofs.Duration
import Cutscene.Proofs.Forgetting
import Cutscene.Proofs.Parking
import Cutscene.ScriptFolder

/-! Where faults are located. What a run adds to the diagnostics has a place: a line that cannot be
read its own, the end of the steps the instruction that comes next, and whatever a call fails for
the line of the call. Only a loader may give a place of its own, and only a loader can state a fault
under the code of another one. -/

namespace Cutscene

namespace Cause

/-- The codes of the parser, and that of the step limit. -/
def isSpecialCode (code : String) : Bool :=
  "PARSE_".toList.isPrefixOf code.toList || code = stepsCode

def isSpecial : Cause → Bool
  | .labelMalformed _ => true
  | .lineMalformed _ => true
  | .textUnterminated => true
  | .parenthesisUnclosed => true
  | .stepsExceeded _ => true
  | .stated code _ => isSpecialCode code
  | _ => false

theorem isSpecial_eq (c : Cause) : c.isSpecial = isSpecialCode c.code := by
  cases c <;> simp only [isSpecial, code, stepsCode, notFoundCode] <;> decide +kernel

theorem isSpecial_of_isOfCall {c : Cause} (h : c.isOfCall = true) : c.isSpecial = false := by
  cases c with
  | conditionEmpty => rfl
  | operandMissing condition => rfl
  | operatorUnknown token => rfl
  | soundParameterCount given => rfl
  | parameterMissing command index => rfl
  | parameterNotInteger command index raw => rfl
  | parameterNotVariable command index raw => rfl
  | ownerMissing command => rfl
  | ownerNotObject => rfl
  | targetMissing => rfl
  | _ => cases h

end Cause

/-- A fault without a place, under a code that is neither the parser's nor that of the step
limit. -/
structure Fault.Plain (f : Fault) : Prop where
  place : f.location = none
  parse : f.isParse = false
  steps : f.code ≠ Cause.stepsCode

theorem Fault.plain_of_cause {f : Fault} (h : f.cause.isSpecial = false)
    (hplace : f.location = none) : f.Plain := by
  rw [Cause.isSpecial_eq, Cause.isSpecialCode, Bool.or_eq_false_iff, decide_eq_false_iff_not] at h
  exact ⟨hplace, h.1, h.2⟩

theorem Fault.Plain.located {f : Fault} (h : f.Plain) (file : String) (line : Nat) :
    f.located file line = ⟨f.cause, some ⟨file, line⟩⟩ := by
  rw [Fault.located, h.place]

namespace Cache

variable {c c' : Cache} {path : String} {paths : List String} {entry : Cached}

/-- The script that a search comes to was held, or it was just read and its faulty lines are kept
for whoever takes them. -/
inductive Gets (c : Cache) (entry : Cached) (c' : Cache) : Prop where
  | held (same : c'.faults = c.faults)
  | read {key source : String} (reads : c.read key = .ok source)
      (parsed : entry.script = (Script.parse key source).script)
      (kept : c'.faults = c.faults ++ Script.faultyLines key source)

theorem load_gets (h : c.load path = (c', .ok entry)) : c.Gets entry c' := by
  unfold load at h
  dsimp only at h
  split at h
  · obtain ⟨rfl, -⟩ := Prod.mk.inj h
    exact .held rfl
  · split at h
    · simp at h
    · next source hread =>
      obtain ⟨rfl, hentry⟩ := Prod.mk.inj h
      obtain rfl := Except.ok.inj hentry
      exact .read hread rfl (by rw [← Script.parse_faults]; rfl)

theorem loadAny_gets (h : c.loadAny paths = (c', some (.ok entry))) : c.Gets entry c' := by
  induction paths generalizing c with
  | nil => simp [loadAny] at h
  | cons path rest ih =>
    cases hload : c.load path with
    | mk c₁ loaded =>
      cases loaded with
      | ok entry' =>
        simp only [loadAny, hload, Prod.mk.injEq, Option.some.injEq, Except.ok.injEq] at h
        obtain ⟨rfl, rfl⟩ := h
        exact load_gets hload
      | error f =>
        have hasked := load_asks hload
        simp only [loadAny, hload] at h
        split at h
        · -- what was asked for in vain before makes no difference
          rw [Asks] at hasked
          cases ih h with
          | held same => exact .held (by rw [same, hasked])
          | read reads parsed kept =>
            rw [hasked] at reads kept
            exact .read reads parsed kept
        · simp at h

theorem loadFirst_gets (h : c.loadFirst paths = (c', .ok entry)) : c.Gets entry c' := by
  unfold loadFirst at h
  split at h
  · next found hany =>
    obtain ⟨rfl, rfl⟩ := Prod.mk.inj h
    exact loadAny_gets hany
  · simp at h

/-- A search fails because no script is there, or for what the loader says of one. -/
theorem loadFirst_refused {f : Fault} (h : c.loadFirst paths = (c', .error f)) :
    (∃ paths, f = { cause := .noCandidate paths }) ∨ ∃ key, c.read key = .error f := by
  have hfound := loadFirst_induct (P := fun c' => c'.read = c.read)
    (Q := fun found => ∀ f, found = .error f →
      (∃ paths, f = { cause := .noCandidate paths }) ∨ ∃ key, c.read key = .error f)
    rfl paths (fun c' path hread => ?_) fun paths f hf => Or.inl ⟨paths, (Except.error.inj hf).symm⟩
  · rw [h] at hfound
    exact hfound.2 f rfl
  · unfold load
    dsimp only
    split
    · exact ⟨hread, fun _ hf => by cases hf⟩
    · split
      · next f' hrefused =>
        refine ⟨hread, fun f hf => Or.inr ⟨ScriptPath.normalize path, ?_⟩⟩
        rw [← hread, ← Except.error.inj hf]
        exact hrefused
      · exact ⟨hread, fun _ hf => by cases hf⟩

end Cache

namespace Engine

variable {ω : Type} {e e' : Engine ω} {call : Call} {f : Fault} {file : String}

theorem reportLines_diagnostics (e : Engine ω) :
    e.reportLines.diagnostics.toList = e.diagnostics.toList ++ e.scene.cache.faults := by
  rw [reportLines_eq]
  simp

/-- An action that was followed has told of the lines that were read for it, and of its own fault
if it failed. -/
theorem follow_diagnostics (e : Engine ω) (file : String) (call : Call)
    {course : Except Fault Course} (hgenuine : course ≠ .ok .stalled) :
    (e.follow file call course).diagnostics.toList =
      e.diagnostics.toList ++ e.scene.cache.faults ++
        match course with
        | .error f => [f.located file call.line]
        | .ok _ => [] := by
  rw [← reportLines_diagnostics]
  cases course with
  | error f =>
    change (e.reportLines.diagnostics.push _).toList = _
    rw [Array.toList_push]
  | ok course =>
    rw [List.append_nil]
    cases course with
    | stalled => exact absurd rfl hgenuine
    | entered => simp [follow]
    | _ => rfl

variable [World ω]

/-- What a call tells of, and where: the lines that cannot be read in a script that it starts, or
what it fails for. -/
inductive Tells (e : Engine ω) (file : String) (call : Call) (e' : Engine ω) : Fault → Prop where
  | line {target key source : String} {i : Nat} {cause : Cause} (asks : e.Asks call (.run target))
      (reads : e.scene.cache.read key = .ok source)
      (refused : Script.refusal? source i = some cause)
      (entered : e'.chain.position = some ⟨(Script.parse key source).script, 0⟩) :
      Tells e file call e' ⟨cause, some ⟨key, i + 1⟩⟩
  | failed {f : Fault} (fails : e.Fails call f) (plain : f.Plain) :
      Tells e file call e' ⟨f.cause, some ⟨file, call.line⟩⟩
  | loader {f : Fault} {target key : String} (fails : e.Fails call f)
      (asks : e.Asks call (.run target)) (refuses : e.scene.cache.read key = .error f) :
      Tells e file call e' (f.located file call.line)

/-- A call of a standard command fails plainly, unless it fails for what the loader says of the
script that it asks for. -/
theorem Fails.cases (h : e.Fails call f) (htable : e.table = .standard) :
    f.Plain ∨ ∃ target key, e.Asks call (.run target) ∧ e.scene.cache.read key = .error f := by
  rcases h.planned with ⟨cause, unknown, rfl⟩ | ⟨command, resolves, refuses⟩ |
    ⟨action, ran, asks, fails⟩ | ⟨ran, asks, stalls, rfl⟩
  · rcases CommandTable.resolve_eq_error unknown with rfl | ⟨c, rfl⟩
    · exact Or.inl (Fault.plain_of_cause rfl rfl)
    · exact Or.inl (Fault.plain_of_cause rfl rfl)
  · rw [htable] at resolves
    have hreplies := CommandTable.standard_replies (v := e.view call) resolves
    rw [refuses] at hreplies
    exact Or.inl (Fault.plain_of_cause (Cause.isSpecial_of_isOfCall hreplies.1) hreplies.2)
  · cases acts_of_act fails with
    | talkEmpty lines => exact Or.inl (Fault.plain_of_cause rfl rfl)
    | jumpNowhere => exact Or.inl (Fault.plain_of_cause rfl rfl)
    | jumpLost lost => exact Or.inl (Fault.plain_of_cause rfl rfl)
    | runTooDeep full => exact Or.inl (Fault.plain_of_cause rfl rfl)
    | runNothing missing =>
      rcases Cache.loadFirst_refused missing with ⟨paths, rfl⟩ | ⟨key, hrefused⟩
      · exact Or.inl (Fault.plain_of_cause rfl rfl)
      · exact Or.inr ⟨_, key, asks, hrefused⟩
  · exact absurd rfl (genuine_of_acts (acts_of_act stalls) (plain_of_asks htable asks))

theorem tells_of_fails (h : e.Fails call f) (htable : e.table = .standard) :
    e.Tells file call e' (f.located file call.line) := by
  rcases h.cases htable with hplain | ⟨target, key, hasks, hrefused⟩
  · rw [hplain.located]
    exact .failed h hplain
  · exact .loader h hasks hrefused

/-- The faults that an action leaves in the cache are those of the script that it has just read and
started. -/
theorem Acts.lines {action : Action} {course : Except Fault Course} (h : e.Acts action e' course)
    (htaken : e.scene.cache.faults = []) (hf : f ∈ e'.scene.cache.faults) :
    ∃ target key source, action = .run target ∧ (course = .ok .entered ∨ course = .ok .moved) ∧
      e.scene.cache.read key = .ok source ∧ f ∈ Script.faultyLines key source ∧
      e'.chain.position = some ⟨(Script.parse key source).script, 0⟩ := by
  have hnone : e'.scene.cache.faults = e.scene.cache.faults → False := by
    intro hsame
    rw [hsame, htaken] at hf
    exact List.not_mem_nil hf
  have hread : ∀ {target : String} {cache : Cache} {entry : Cached},
      e.scene.cache.loadFirst (e.candidates target) = (cache, .ok entry) → f ∈ cache.faults →
      (cache.faults = e.scene.cache.faults → False) →
      ∃ key source, e.scene.cache.read key = .ok source ∧ f ∈ Script.faultyLines key source ∧
        (e.chain.enter entry.script).position = some ⟨(Script.parse key source).script, 0⟩ := by
    intro target cache entry found hf hnone
    cases Cache.loadFirst_gets found with
    | held same => exact absurd same hnone
    | @read key source reads parsed kept =>
      rw [htaken, List.nil_append] at kept
      exact ⟨key, source, reads, kept ▸ hf, by rw [← parsed]; rfl⟩
  cases h with
  | @run target cache entry room found inside =>
    obtain ⟨key, source, hgot⟩ := hread found hf hnone
    exact ⟨target, key, source, rfl, Or.inl rfl, hgot⟩
  | @runFirst target cache entry room found lost =>
    obtain ⟨key, source, hgot⟩ := hread found hf hnone
    exact ⟨target, key, source, rfl, Or.inr rfl, hgot⟩
  | _ => exact (hnone rfl).elim

/-- What the dispatch of a call adds to the diagnostics is what the call tells of. -/
theorem tells_of_dispatch (htable : e.table = .standard) (htaken : e.scene.cache.faults = [])
    (h : e.dispatch file call = .ok e') :
    ∃ added, e'.diagnostics.toList = e.diagnostics.toList ++ added ∧
      ∀ f ∈ added, e.Tells file call e' f := by
  cases hresolve : e.table.resolve call with
  | error cause =>
    simp only [dispatch_eq, hresolve] at h
    obtain rfl := Except.ok.inj h
    refine ⟨[({ cause } : Fault).located file call.line], Array.toList_push .., fun f hf => ?_⟩
    obtain rfl := List.mem_singleton.mp hf
    exact tells_of_fails (.unresolved hresolve) htable
  | ok command =>
    cases hasks : command.handler (e.view call) with
    | error f =>
      simp only [dispatch_eq, hresolve, hasks] at h
      obtain rfl := Except.ok.inj h
      refine ⟨[f.located file call.line], ?_, fun f' hf' => ?_⟩
      · have hgenuine : (.error f : Except Fault Course) ≠ .ok .stalled := fun heq => by
          cases heq
        rw [follow_diagnostics e file call hgenuine, htaken, List.append_nil]
      · obtain rfl := List.mem_singleton.mp hf'
        exact tells_of_fails (.of_refused hresolve hasks) htable
    | ok action =>
      have hasked : e.Asks call action := ⟨command, hresolve, hasks⟩
      rw [dispatch_of_asks hasked] at h
      obtain ⟨⟨e₁, course⟩, hact, h⟩ := bind_eq_ok.mp h
      obtain rfl := Except.ok.inj h
      have hacts := acts_of_act hact
      have hgenuine := genuine_of_acts hacts (plain_of_asks htable hasked)
      have htold := follow_diagnostics e₁ file call hgenuine
      rw [hacts.diagnostics, List.append_assoc] at htold
      refine ⟨_, htold, fun f hf => ?_⟩
      rcases List.mem_append.mp hf with hline | hown
      · obtain ⟨target, key, source, rfl, hcourse, hread, hmem, hentered⟩ :=
          hacts.lines htaken hline
        obtain ⟨i, -, hi⟩ := List.mem_filterMap.mp hmem
        obtain ⟨cause, hrefused, rfl⟩ := Option.map_eq_some_iff.mp hi
        refine .line hasked hread hrefused ?_
        rcases hcourse with rfl | rfl
        · exact (congrArg Chain.position (follow_chain ..)).trans hentered
        · exact (congrArg Chain.position (follow_chain ..)).trans hentered
      · cases course with
        | error f' =>
          obtain rfl := List.mem_singleton.mp hown
          exact tells_of_fails (.of_acted hasked hact) htable
        | ok course => cases hown

theorem tells_of_step {p : Position} (htable : e.table = .standard)
    (htaken : e.scene.cache.faults = []) (h : e.step p (.call call) = .ok e') :
    ∃ added, e'.diagnostics.toList = e.diagnostics.toList ++ added ∧
      ∀ f ∈ added, (e.arrived p).Tells p.script.file call e' f := by
  have htable' : (e.arrived p).table = .standard := by rwa [arrived, observe_toRunner]
  have htaken' : (e.arrived p).scene.cache.faults = [] := by rwa [arrived, observe_cache]
  obtain ⟨added, hadded, htells⟩ := tells_of_dispatch htable' htaken' h
  rw [arrived, observe_toRunner] at hadded
  exact ⟨added, hadded, htells⟩

end Engine

open Engine

variable {ω : Type} [World ω] {s t : Phase ω} {options : Options} {f : Fault}

/-- A fault that a round tells of, at its place: the instruction that comes next when the steps are
used up, or what the call tells of that is run. -/
inductive Phase.Locates (s t : Phase ω) : Fault → Prop where
  | steps {p : Position} {i : Instruction} {limit : Nat} (stands : t.chain.position = some p)
      (next : p.instruction? = some i) :
      Locates s t ⟨.stepsExceeded limit, some ⟨p.script.file, i.line⟩⟩
  | call {p : Position} {c : Call} {f : Fault} (stands : s.chain.position = some p)
      (runs : s.next? = some (.call c))
      (tells : (s.engine.arrived p).Tells p.script.file c t.engine f) : Locates s t f

theorem Fault.location_located (f : Fault) (file : String) (line : Nat) :
    (f.located file line).location ≠ none := by
  unfold Fault.located
  split
  · next hplace => simp [hplace]
  · simp

/-- What is told has a place. -/
theorem Phase.Locates.located (h : s.Locates t f) : f.location ≠ none := by
  cases h with
  | steps stands next => exact nofun
  | call stands runs tells =>
    cases tells with
    | line asks reads refused entered => exact nofun
    | failed fails plain => exact nofun
    | loader fails asks refuses => exact Fault.location_located _ _ _

theorem locates_of_round (htable : s.engine.table = .standard)
    (htaken : s.engine.scene.cache.faults = []) (h : Round s t) :
    ∃ added, t.engine.diagnostics.toList = s.engine.diagnostics.toList ++ added ∧
      ∀ f ∈ added, s.Locates t f := by
  have hsilent : t.engine.diagnostics = s.engine.diagnostics →
      ∃ added, t.engine.diagnostics.toList = s.engine.diagnostics.toList ++ added ∧
        ∀ f ∈ added, s.Locates t f := fun hsame => ⟨[], by simp [hsame], by simp⟩
  cases h with
  | halt held => exact hsilent rfl
  | leave free runs ended leaves => exact hsilent rfl
  | finish free ended alone => exact hsilent rfl
  | @yield e p i free stands next =>
    by_cases hpending : e.hasPending Cause.stepsCode = true
    · exact hsilent (by simp [Phase.engine, yield, hpending])
    · refine ⟨[⟨.stepsExceeded e.options.maxSteps, some ⟨p.script.file, i.line⟩⟩], ?_, ?_⟩
      · simp [Phase.engine, yield, hpending, report]
      · intro f hf
        obtain rfl := List.mem_singleton.mp hf
        exact .steps (by simpa using stands) next
  | @step left e e' p i free stands next ran =>
    cases i with
    | marker name literal line =>
      obtain ⟨-, rfl⟩ := step_marker_eq_ok.mp ran
      exact hsilent rfl
    | call c =>
      obtain ⟨added, hadded, htells⟩ := tells_of_step htable htaken ran
      exact ⟨added, hadded, fun f hf =>
        .call stands (next?_of_inside left free stands next) (htells f hf)⟩

/-- A loader that does not state a fault under the code of the step limit. -/
def Cache.Unyielding (c : Cache) : Prop :=
  ∀ path f, c.read path = .error f → f.code ≠ Cause.stepsCode

theorem Cause.code_of_isOfLine {c : Cause} (h : c.isOfLine = true) : c.code ≠ stepsCode := by
  cases c with
  | labelMalformed line => simp [code, stepsCode]
  | lineMalformed line => simp [code, stepsCode]
  | textUnterminated => simp [code, stepsCode]
  | parenthesisUnclosed => simp [code, stepsCode]
  | _ => cases h

namespace Engine

variable {e e' : Engine ω} {call : Call} {file : String} {r : Request ω} {o : Opening ω}

theorem Tells.code (h : e.Tells file call e' f) (hloader : e.scene.cache.Unyielding) :
    f.code ≠ Cause.stepsCode := by
  cases h with
  | line asks reads refused entered =>
    exact Cause.code_of_isOfLine (Script.isOfLine_of_refusal? refused)
  | failed fails plain => exact plain.steps
  | loader fails asks refuses =>
    rw [Fault.code, Fault.cause_located]
    exact hloader _ _ refuses

omit [World ω] in
/-- An engine that keeps one fault of the step limit at most, and whose loader states none. -/
structure Guarded (e : Engine ω) : Prop where
  once : e.diagnostics.toList.countP (·.code = Cause.stepsCode) ≤ 1
  loader : e.scene.cache.Unyielding

omit [World ω] in
theorem Guarded.adds (h : e.Guarded) (added : List Fault)
    (hread : e'.scene.cache.read = e.scene.cache.read)
    (hadded : e'.diagnostics.toList = e.diagnostics.toList ++ added)
    (hcodes : ∀ f ∈ added, f.code ≠ Cause.stepsCode) : e'.Guarded := by
  have hnone : added.countP (·.code = Cause.stepsCode) = 0 :=
    List.countP_eq_zero.mpr fun f hf => by simpa using hcodes f hf
  refine ⟨?_, ?_⟩
  · rw [hadded, List.countP_append, hnone]
    exact h.once
  · intro path f hrefused
    rw [hread] at hrefused
    exact h.loader path f hrefused

omit [World ω] in
theorem Guarded.of_eq (h : e.Guarded) (hread : e'.scene.cache.read = e.scene.cache.read)
    (hdiagnostics : e'.diagnostics = e.diagnostics) : e'.Guarded :=
  h.adds [] hread (by simp [hdiagnostics]) (by simp)

omit [World ω] in
theorem Guarded.report (h : e.Guarded) (hf : f.code ≠ Cause.stepsCode) : (e.report f).Guarded :=
  h.adds [f] rfl (by simp [Engine.report]) (by simpa using hf)

omit [World ω] in
theorem Guarded.yield (h : e.Guarded) (p : Position) (i : Instruction) : (e.yield p i).Guarded := by
  unfold Engine.yield
  split
  · exact h
  · next hpending =>
    refine ⟨?_, h.loader⟩
    have hnone : e.diagnostics.toList.countP (·.code = Cause.stepsCode) = 0 := by
      rw [List.countP_eq_zero]
      rw [hasPending, ← Array.any_toList, Bool.not_eq_true, List.any_eq_false] at hpending
      exact hpending
    rw [Engine.report, Array.toList_push, List.countP_append, hnone, List.countP_singleton,
      Nat.zero_add]
    split <;> simp

omit [World ω] in
theorem Guarded.foldl_report {faults : List Fault} (h : e.Guarded)
    (hfaults : ∀ f ∈ faults, f.code ≠ Cause.stepsCode) :
    (faults.foldl Engine.report e).Guarded := by
  rw [Engine.foldl_report]
  exact h.adds faults rfl (by simp) hfaults

omit [World ω] in
theorem Guarded.starts (h : e.Guarded) (script : Script) (owner : Option Owner) :
    (e.starts script owner).phase.engine.Guarded := by
  unfold Engine.starts
  split
  · exact h.report (by simp [Fault.code, Cause.code, Cause.stepsCode])
  · refine h.of_eq ?_ ?_
    · simp [Phase.begun, Phase.engine]
    · simp [Phase.begun, Phase.engine]
      rfl

omit [World ω] in
/-- What is read on the way to a script, and why none is found, does not count. -/
theorem Guarded.found {paths : List String} {cache : Cache} {found : Except Fault Cached}
    (h : e.Guarded) (htaken : e.scene.cache.faults = [])
    (hfound : e.scene.cache.loadFirst paths = (cache, found)) :
    (e.withCache cache).reportLines.Guarded ∧
      ∀ f, found = .error f → f.code ≠ Cause.stepsCode := by
  have hlines : ∀ f ∈ cache.faults, f.code ≠ Cause.stepsCode := by
    intro f hf
    cases found with
    | ok entry =>
      cases Cache.loadFirst_gets hfound with
      | held same =>
        rw [same, htaken] at hf
        cases hf
      | read reads parsed kept =>
        rw [kept, htaken, List.nil_append] at hf
        exact Cause.code_of_isOfLine (Script.isOfLine_of_mem hf)
    | error f' =>
      obtain ⟨reads, rfl⟩ := Cache.loadFirst_error hfound
      rw [htaken] at hf
      cases hf
  obtain ⟨log, hnotes, -⟩ := notes_found htaken hfound
  refine ⟨h.adds _ hnotes.read (reportLines_diagnostics _) hlines, ?_⟩
  rintro f rfl
  rcases Cache.loadFirst_refused hfound with ⟨paths, rfl⟩ | ⟨key, hrefused⟩
  · simp [Fault.code, Cause.code, Cause.stepsCode, Cause.notFoundCode]
  · exact h.loader key f hrefused

theorem Guarded.opened (h : e.Guarded) (htaken : e.scene.cache.faults = [])
    (hcache : ∀ cache taken, r = .setCache cache taken → cache.Unyielding)
    (hopened : e.Opened r o) : o.phase.engine.Guarded := by
  cases hopened with
  | @run path owner cache entry found => exact (h.found htaken found).1.starts entry.script owner
  | @runNothing path owner cache f missing inside =>
    obtain ⟨hread, hcode⟩ := h.found htaken missing
    exact hread.report (hcode f rfl)
  | @runNothingIdle path owner cache f missing outside =>
    obtain ⟨hread, hcode⟩ := h.found htaken missing
    have hended : ((e.withCache cache).reportLines.withChain e.chain.finish).Guarded :=
      hread.of_eq rfl rfl
    exact hended.report (hcode f rfl)
  | @runContent file source owner parsed parses =>
    refine (h.foldl_report fun f hf => ?_).starts parsed.script owner
    rw [← parses, Script.parse_faults] at hf
    exact Cause.code_of_isOfLine (Script.isOfLine_of_mem hf)
  | takeDiagnostics => exact ⟨by simp [rests, Phase.engine], h.loader⟩
  | @setCache cache taken => exact ⟨h.once, hcache cache taken rfl⟩
  | _ => exact h.of_eq rfl rfl

end Engine

theorem Round.guarded (h : s.engine.Guarded) (htable : s.engine.table = .standard)
    (htaken : s.engine.scene.cache.faults = []) (hround : Round s t) : t.engine.Guarded := by
  obtain ⟨log, hnotes⟩ := hround.notes htaken
  cases hround with
  | halt held => exact h
  | leave free runs ended leaves => exact h.of_eq rfl rfl
  | finish free ended alone => exact h.of_eq rfl rfl
  | yield free stands next => exact h.yield _ _
  | @step left e e' p i free stands next ran =>
    cases i with
    | marker name literal line =>
      obtain ⟨-, rfl⟩ := step_marker_eq_ok.mp ran
      exact h.of_eq rfl rfl
    | call c =>
      obtain ⟨added, hadded, htells⟩ := tells_of_step htable htaken ran
      have hloader : (e.arrived p).scene.cache.Unyielding := by
        rw [arrived, observe_cache]
        exact h.loader
      exact h.adds added hnotes.read hadded fun f hf => (htells f hf).code hloader

/-- A request that brings no cache whose loader states faults of the step limit. -/
def Request.Unyielding (r : Request ω) : Prop :=
  ∀ cache taken, r = .setCache cache taken → cache.Unyielding

theorem guarded_of_reachesBy {scene : Scene ω} (htaken : scene.cache.faults = [])
    (hloader : scene.cache.Unyielding)
    (h : ReachesBy Request.Unyielding (.resting (.fresh .standard options scene)) s) :
    s.engine.Guarded := by
  have hstart : (Phase.resting (.fresh .standard options scene)).engine.Guarded :=
    ⟨by simp [Phase.engine, fresh, ofRunner, Runner.ofOptions], hloader⟩
  have hframe : ∀ {t}, ReachesBy Request.Unyielding (.resting (.fresh .standard options scene)) t →
      t.engine.table = .standard ∧ t.engine.options = options ∧ t.engine.scene.cache.faults = [] :=
    fun hreach => Reachable.frame ⟨scene, htaken, reaches_of_reachesBy hreach⟩
  refine invariant_of_reachesBy (P := fun s => s.engine.Guarded) h hstart ?_ ?_
  · intro s t hreach hguarded round
    obtain ⟨htable, -, htaken⟩ := hframe hreach
    exact round.guarded hguarded htable htaken
  · intro e r o hreach hguarded hallowed opens
    exact hguarded.opened (hframe hreach).2.2 hallowed (opened_of_opening opens)

/-- Scripts in memory and scripts in a folder are read without such faults. -/
theorem Shelf.unyielding (shelf : Shelf) : Cache.Unyielding { read := shelf.read } := by
  intro path f hrefused
  simp only [Shelf.read] at hrefused
  split at hrefused
  · cases hrefused
  · obtain rfl := Except.error.inj hrefused
    simp [Fault.code, Cause.code, Cause.stepsCode, Cause.notFoundCode]

theorem ScriptFolder.unyielding (index : Dict String (String × Option String)) (root : String) :
    Cache.Unyielding { read := ScriptFolder.read index root } := by
  intro path f hrefused
  simp only [ScriptFolder.read] at hrefused
  split at hrefused
  · obtain rfl := Except.error.inj hrefused
    simp [Fault.code, Cause.code, Cause.stepsCode, Cause.notFoundCode]
  · split at hrefused
    · cases hrefused
    · obtain rfl := Except.error.inj hrefused
      simp [Fault.code, Cause.code, Cause.stepsCode]

/-- Whatever a run of the standard commands adds to the diagnostics has a place: that of the
instruction that comes next for the end of the steps, that of the line itself for a line that cannot
be read, and for all else that of the call that failed, unless the loader gave another one. As long
as no loader states a fault under the code of the step limit, one of these at most is pending. -/
theorem faults_point_at_their_cause (options : Options) :
    (∀ s t : Phase ω, Reachable .standard options s → Round s t →
      ∃ added, t.engine.diagnostics.toList = s.engine.diagnostics.toList ++ added ∧
        ∀ f ∈ added, f.location ≠ none ∧ s.Locates t f) ∧
    ∀ (scene : Scene ω) s, scene.cache.faults = [] → scene.cache.Unyielding →
      ReachesBy Request.Unyielding (.resting (.fresh .standard options scene)) s →
      s.engine.diagnostics.toList.countP (·.code = Cause.stepsCode) ≤ 1 := by
  refine ⟨fun s t hreach round => ?_, fun scene s htaken hloader hreach => ?_⟩
  · obtain ⟨htable, -, htaken⟩ := hreach.frame
    obtain ⟨added, hadded, hlocates⟩ := locates_of_round htable htaken round
    exact ⟨added, hadded, fun f hf => ⟨(hlocates f hf).located, hlocates f hf⟩⟩
  · exact (guarded_of_reachesBy htaken hloader hreach).once

namespace Rehearsal

def tornScene : Scene Recording :=
  { world := {}, cache := { read := Shelf.read [("torn", "Sleep(5;")] } }

def reader : Script := (Script.parse "reader" "RunScript(\"torn\");").script

def runTorn : Call := ⟨"RunScript", ["torn"], "", "RunScript(\"torn\");", 1⟩

/-- The line of a script that was just started is told of at its own place, not at the call. -/
theorem torn_line_located : ∃ (s t : Phase Recording) (f : Fault),
    Reachable .standard {} s ∧ Round s t ∧ s.engine.diagnostics.toList = [] ∧
    t.engine.diagnostics.toList = [f] ∧ f.code = "PARSE_UNCLOSED_PAREN" ∧
    f.location = some ⟨"torn", 1⟩ ∧ s.Locates t f ∧
    t.engine.diagnostics.toList.countP (·.code = Cause.stepsCode) ≤ 1 := by
  obtain ⟨o, hopen, hstate⟩ := exists_ok
    (r := (fresh .standard {} tornScene).opening (.runContent "reader" "RunScript(\"torn\");" none))
    (f := fun o => (glance o.phase,
      (o.phase.engine.step ⟨reader, 0⟩ (.call runTorn)).toOption.map fun e =>
        e.diagnostics.toList.map fun f => (f.code, f.location)))
    (b := (⟨some ⟨reader, 0⟩, [], false, some 10000⟩,
      some [("PARSE_UNCLOSED_PAREN", some ⟨"torn", 1⟩)])) (by decide +kernel)
  have hsize : ((fresh .standard {} tornScene).opening
      (.runContent "reader" "RunScript(\"torn\");" none)).toOption.map
        (fun o => o.phase.engine.diagnostics.size) = some 0 := by decide +kernel
  obtain ⟨hglance, hstepped⟩ := Prod.mk.inj hstate
  obtain ⟨e, hphase, hp, -, hfree⟩ := running_of_glance hglance
  obtain ⟨e', hstep, htold⟩ := exists_ok hstepped
  have hnext : Position.instruction? ⟨reader, 0⟩ = some (.call runTorn) := by decide +kernel
  rw [hphase] at hstep
  have hround : Round (.running 10000 e) (.running 9999 e') := .step hfree hp hnext hstep
  have hreach : ReachesBy Request.Unyielding (.resting (fresh .standard {} tornScene))
      (.running 10000 e) := by
    rw [← hphase]
    exact .single ⟨_, by simp [Request.Unyielding], .request hopen⟩
  have hreach' := hreach.tail ⟨none, by simp, .round hround⟩
  have hreachable : Reachable .standard {} (.running 10000 e) :=
    ⟨tornScene, rfl, reaches_of_reachesBy hreach⟩
  have hnone : e.diagnostics.toList = [] := by
    rw [hopen] at hsize
    simpa [Except.toOption, hphase, Phase.engine] using hsize
  obtain ⟨hplace, honce⟩ := faults_point_at_their_cause (ω := Recording) {}
  obtain ⟨added, hadded, hlocates⟩ := hplace _ _ hreachable hround
  obtain ⟨f, htold⟩ := List.map_eq_singleton_iff.mp htold
  obtain ⟨hall, hf⟩ := htold
  obtain ⟨hcode, hlocation⟩ := Prod.mk.inj hf
  refine ⟨_, _, f, hreachable, hround, hnone, hall, hcode, hlocation, ?_,
    honce tornScene _ rfl (Shelf.unyielding _) hreach'⟩
  refine (hlocates f ?_).2
  rw [Phase.engine, Phase.engine, hnone, List.nil_append, hall] at hadded
  simp [← hadded]

/-- A loader that puts scripts off, under the code of the step limit. -/
def busyScene : Scene Recording :=
  let read := fun _ => .error { cause := .stated "ENGINE_STEP_GUARD" "later" }
  { world := {}, cache := { read } }

/-- What a loader states is kept as often as it states it, at the calls that asked for scripts. -/
theorem stated_guards_pile_up : ∃ e : Engine Recording,
    Reachable .standard {} (.resting e) ∧
    e.diagnostics.toList.map (fun f => (f.code, f.location)) =
      [("ENGINE_STEP_GUARD", some ⟨"main.txt", 1⟩), ("ENGINE_STEP_GUARD", some ⟨"main.txt", 2⟩)] ∧
    ¬ e.diagnostics.toList.countP (·.code = Cause.stepsCode) ≤ 1 := by
  obtain ⟨e, hserve, htold⟩ := exists_ok
    (r := serve [.runContent "main.txt"
      "RunScript(\"aside/a.txt\");\nRunScript(\"aside/b.txt\");" none]
      (fresh .standard {} busyScene))
    (f := fun e => e.diagnostics.toList.map fun f => (f.code, f.location))
    (b := [("ENGINE_STEP_GUARD", some ⟨"main.txt", 1⟩),
      ("ENGINE_STEP_GUARD", some ⟨"main.txt", 2⟩)]) (by decide +kernel)
  refine ⟨e, ⟨busyScene, rfl, reaches_of_serve hserve⟩, htold, ?_⟩
  have hcount : e.diagnostics.toList.countP (·.code = Cause.stepsCode) =
      (e.diagnostics.toList.map fun f => (f.code, f.location)).countP
        (·.1 = Cause.stepsCode) := by
    rw [List.countP_map]
    rfl
  rw [hcount, htold]
  decide

end Rehearsal

end Cutscene
