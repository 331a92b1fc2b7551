import Cutscene.Proofs.Forgetting

/-! Clearing the cache. Engines in lockstep answer every request alike, so that clearing the cache
between requests changes nothing that a chain does; the chain is only told once more of the faulty
lines of what is read again. -/

namespace Cutscene

namespace Engine

variable {ω : Type} [World ω] {read : String → Except Fault String} {taken taken' : List Fault}
  {e e' : Engine ω}

omit [World ω] in
theorem unmindful_park (wait : Wait) : Unmindful (ω := ω) (·.park wait) := fun _ _ _ => rfl

theorem unmindful_assign (name : String) (value : Int32) :
    Unmindful (ω := ω) (·.assign name value) := fun _ _ _ => rfl

theorem unmindful_draw (name : String) (a b : Int32) : Unmindful (ω := ω) (·.draw name a b) := by
  intro e diagnostics cache
  have hrandom : (e.remembering diagnostics cache).random = e.random := rfl
  simp only [draw, hrandom]
  generalize e.random.between a b = drawn
  rfl

namespace Lockstep

theorem view (h : Lockstep read taken taken' e e') (call : Call) : e'.view call = e.view call := by
  simp only [Engine.view, h.chain, h.world]

omit [World ω] in
theorem withWorld (h : Lockstep read taken taken' e e') (world : ω) :
    Lockstep read taken taken' (e.withWorld world) (e'.withWorld world) :=
  h.unmindful (unmindful_withWorld world)

/-- Both engines find the same script, or fail to for the same reason. -/
theorem found (h : Lockstep read taken taken' e e') (target : String) :
    Forgets read taken taken' (e.withCache (e.scene.cache.loadFirst (e.candidates target)).1)
        (e'.withCache (e'.scene.cache.loadFirst (e'.candidates target)).1) ∧
      (e'.scene.cache.loadFirst (e'.candidates target)).2.map Cached.script =
        (e.scene.cache.loadFirst (e.candidates target)).2.map Cached.script := by
  have hcandidates : e'.candidates target = e.candidates target := by
    simp only [candidates, h.chain, h.world]
  obtain ⟨hcache, hsame⟩ := h.cache.loadFirst (e.candidates target)
  rw [hcandidates]
  exact ⟨h.toForgets.withCache hcache, hsame⟩

theorem call (h : Lockstep read taken taken' e e') (target : String) :
    Forgets read taken taken' (e.call target).1 (e'.call target).1 ∧
      (e'.call target).2 = (e.call target).2 := by
  obtain ⟨hcache, hsame⟩ := h.found target
  unfold Engine.call
  rw [h.options, h.chain]
  split
  · exact ⟨h.toForgets, rfl⟩
  · generalize e.scene.cache.loadFirst (e.candidates target) = loaded at hcache hsame
    generalize e'.scene.cache.loadFirst (e'.candidates target) = loaded' at hcache hsame
    obtain ⟨cache, found⟩ := loaded
    obtain ⟨cache', found'⟩ := loaded'
    have hchain : (e'.withCache cache').chain = (e.withCache cache).chain := hcache.chain
    cases found with
    | error f =>
      cases found' with
      | error f' =>
        obtain rfl := Except.error.inj hsame
        exact ⟨hcache, rfl⟩
      | ok entry' => cases hsame
    | ok entry =>
      cases found' with
      | error f' => cases hsame
      | ok entry' =>
        have hscript : entry'.script = entry.script := Except.ok.inj hsame
        simp only [hchain, hscript]
        exact ⟨hcache.unmindful (unmindful_withChain _), trivial⟩

omit [World ω] in
theorem pass (h : Lockstep read taken taken' e e') (label : String) :
    Agree (Lockstep read taken taken') (e.pass label) (e'.pass label) := by
  unfold Engine.pass
  rw [h.chain, h.world]
  split
  · exact .ok (h.unmindful (unmindful_withChain _))
  · exact .error _

omit [World ω] in
theorem jump (h : Lockstep read taken taken' e e') (label : String) :
    Agree (fun a a' => Forgets read taken taken' a.1 a'.1 ∧ a'.2 = a.2) (e.jump label)
      (e'.jump label) := by
  unfold Engine.jump
  rw [h.chain]
  cases hscript : e.chain.script? with
  | none => exact .ok ⟨h.toForgets, rfl⟩
  | some script =>
    cases hm : script.markerOf? (Label.normalize label) with
    | none =>
      simp only [hm]
      exact .ok ⟨h.toForgets, rfl⟩
    | some i =>
      simp only [hm]
      refine (h.pass _).bind fun passed passed' hpassed => ?_
      rw [hpassed.chain]
      exact .ok ⟨hpassed.toForgets.unmindful (unmindful_withChain _), rfl⟩

theorem act (h : Lockstep read taken taken' e e') (action : Action) :
    Agree (fun a a' => Forgets read taken taken' a.1 a'.1 ∧ a'.2 = a.2) (e.act action)
      (e'.act action) := by
  have hkeeps := h.toForgets
  have hwait : e'.chain.wait = e.chain.wait := by rw [h.chain]
  have hparked : ∀ world wait, Forgets read taken taken' ((e.withWorld world).park wait)
      ((e'.withWorld world).park wait) := fun world wait =>
    (h.withWorld world).toForgets.unmindful (unmindful_park wait)
  cases action with
  | proceed => exact .ok ⟨hkeeps, rfl⟩
  | perform effect wait =>
    cases wait with
    | none =>
      exact (agree_perform h.world h.withWorld effect).bind fun _ _ hdone =>
        .ok ⟨hdone.toForgets, rfl⟩
    | some wait =>
      exact agree_performAndPark h.world hwait effect wait fun world => ⟨hparked world wait, rfl⟩
  | park wait =>
    exact (agree_beginWait h.world hwait wait (hkeeps.unmindful (unmindful_park wait))).bind
      fun _ _ hbegun => .ok ⟨hbegun, rfl⟩
  | assign name value => exact .ok ⟨hkeeps.unmindful (unmindful_assign name value), rfl⟩
  | draw name a b => exact .ok ⟨hkeeps.unmindful (unmindful_draw name a b), rfl⟩
  | talk first last =>
    exact agree_talk h.world hwait (fun _ => ⟨hkeeps, rfl⟩)
      (fun world wait => ⟨hparked world wait, rfl⟩) first last
  | jump label => exact h.jump label
  | run target => exact .ok (h.call target)
  | goBack =>
    simp only [Engine.act, h.chain]
    exact .ok ⟨hkeeps.unmindful (unmindful_withChain _), rfl⟩
  | stay => exact .ok ⟨hkeeps, rfl⟩
  | stall =>
    simp only [Engine.act, h.chain]
    exact .ok ⟨hkeeps, rfl⟩

theorem dispatch (h : Lockstep read taken taken' e e') (file : String) (call : Call) :
    Agree (Lockstep read taken taken') (e.dispatch file call) (e'.dispatch file call) := by
  have htable : e'.table = e.table := by rw [h.same]; rfl
  rw [dispatch_eq, dispatch_eq, htable, h.view]
  cases e.table.resolve call with
  | error cause => exact .ok (h.skipFaulty file call _)
  | ok command =>
    cases hasks : command.handler (e.view call) with
    | error f => simpa only [hasks] using .ok (h.toForgets.follow file call (.error f))
    | ok action =>
      simp only [hasks]
      refine (h.act action).bind fun acted acted' hacted => ?_
      obtain ⟨acted, course⟩ := acted
      obtain ⟨acted', course'⟩ := acted'
      obtain ⟨hacted, hcourse⟩ := hacted
      obtain rfl : course' = course := hcourse
      exact .ok (hacted.follow file call course')

theorem step (h : Lockstep read taken taken' e e') (p : Position) (i : Instruction) :
    Agree (Lockstep read taken taken') (e.step p i) (e'.step p i) := by
  cases i with
  | marker name literal line =>
    refine (h.pass name).bind fun _ _ hpassed => .ok ?_
    simp only [advance, hpassed.chain]
    exact hpassed.unmindful (unmindful_withChain _)
  | call c => exact (h.unmindful (unmindful_observe _)).dispatch p.script.file c

omit [World ω] in
theorem ready (h : Lockstep read taken taken' e e') :
    Lockstep read taken taken' e.ready.1 e'.ready.1 ∧ e'.ready.2 = e.ready.2 := by
  have hheld : e'.isHeld = e.isHeld := by simp only [isHeld, h.chain]
  unfold Engine.ready
  rw [hheld, h.chain]
  split
  · exact ⟨h, rfl⟩
  · exact ⟨h.unmindful (unmindful_withChain _), rfl⟩

theorem steps (h : Lockstep read taken taken' e e') (n : Nat) :
    Agree (Lockstep read taken taken') (e.steps n) (e'.steps n) := by
  induction n generalizing e e' with
  | zero =>
    obtain ⟨hready, hnext⟩ := h.ready
    unfold Engine.steps
    generalize e.ready = r at hready hnext
    generalize e'.ready = r' at hready hnext
    obtain ⟨e₁, next⟩ := r
    obtain ⟨e₁', next'⟩ := r'
    obtain rfl : next' = next := hnext
    cases next' with
    | none => exact .ok hready
    | some next => exact .ok (hready.yield next.1 next.2)
  | succ n ih =>
    obtain ⟨hready, hnext⟩ := h.ready
    unfold Engine.steps
    generalize e.ready = r at hready hnext
    generalize e'.ready = r' at hready hnext
    obtain ⟨e₁, next⟩ := r
    obtain ⟨e₁', next'⟩ := r'
    obtain rfl : next' = next := hnext
    cases next' with
    | none => exact .ok hready
    | some next => exact (hready.step next.1 next.2).bind fun _ _ hstep => ih hstep

theorem execute (h : Lockstep read taken taken' e e') :
    Agree (Lockstep read taken taken') e.execute e'.execute := by
  unfold Engine.execute
  rw [h.options]
  exact h.steps _

omit [World ω] in
theorem succeed {r r' : Except (Crash ω) (Engine ω)} (h : Agree (Lockstep read taken taken') r r') :
    Agree (fun a a' => Lockstep read taken taken' a.1 a'.1 ∧ a'.2 = a.2) (Engine.succeed r)
      (Engine.succeed r') :=
  h.map fun _ _ hdone => ⟨hdone, rfl⟩

theorem start (h : Lockstep read taken taken' e e') (script : Script) (owner : Option Owner) :
    Agree (fun a a' => Lockstep read taken taken' a.1 a'.1 ∧ a'.2 = a.2) (e.start script owner)
      (e'.start script owner) := by
  have hdepth : e'.nextDepth = e.nextDepth := by simp only [nextDepth, h.chain]
  unfold Engine.start
  rw [h.options, h.chain, hdepth]
  split
  · exact .ok ⟨h.report _, rfl⟩
  · have hentered := h.unmindful (unmindful_withChain
      ({ e.chain with owner := owner <|> e.chain.owner }.enter script))
    exact succeed (hentered.unmindful unmindful_announce).execute

omit [World ω] in
theorem failStart (h : Lockstep read taken taken' e e') (f : Fault) :
    Agree (fun a a' => Lockstep read taken taken' a.1 a'.1 ∧ a'.2 = a.2) (e.failStart f)
      (e'.failStart f) := by
  unfold Engine.failStart
  simp only [h.chain]
  split
  · exact .ok ⟨h.report f, rfl⟩
  · exact .ok ⟨(h.unmindful (unmindful_withChain _)).report f, rfl⟩

theorem runScript (h : Lockstep read taken taken' e e') (path : String) (owner : Option Owner) :
    Agree (fun a a' => Lockstep read taken taken' a.1 a'.1 ∧ a'.2 = a.2) (e.runScript path owner)
      (e'.runScript path owner) := by
  obtain ⟨hcache, hsame⟩ := h.found path
  unfold Engine.runScript
  generalize e.scene.cache.loadFirst (e.candidates path) = loaded at hcache hsame
  generalize e'.scene.cache.loadFirst (e'.candidates path) = loaded' at hcache hsame
  obtain ⟨cache, found⟩ := loaded
  obtain ⟨cache', found'⟩ := loaded'
  cases found with
  | error f =>
    cases found' with
    | error f' =>
      obtain rfl := Except.error.inj hsame
      exact hcache.reportLines.failStart f'
    | ok entry' => cases hsame
  | ok entry =>
    cases found' with
    | error f' => cases hsame
    | ok entry' =>
      have hscript : entry'.script = entry.script := Except.ok.inj hsame
      simp only [hscript]
      exact hcache.reportLines.start entry.script owner

omit [World ω] in
theorem reportAll (h : Lockstep read taken taken' e e') (faults : List Fault) :
    Lockstep read taken taken' (faults.foldl Engine.report e) (faults.foldl Engine.report e') := by
  induction faults generalizing e e' with
  | nil => exact h
  | cons f faults ih => exact ih (h.report f)

theorem goOn (h : Lockstep read taken taken' e e') :
    Agree (Lockstep read taken taken') e.goOn e'.goOn := by
  unfold Engine.goOn
  rw [h.chain]
  exact (h.unmindful (unmindful_withChain _)).execute

theorem closeDialog (h : Lockstep read taken taken' e e') :
    Agree (fun a a' => Lockstep read taken taken' a.1 a'.1 ∧ a'.2 = a.2) e.closeDialog
      e'.closeDialog := by
  unfold Engine.closeDialog
  rw [h.chain]
  split
  · have hperform := agree_perform h.world h.withWorld
    refine (hperform _).bind fun _ _ hshown => .ok ⟨hshown.unmindful (unmindful_park _), rfl⟩
  · exact succeed h.goOn
  · exact succeed h.goOn
  · exact .ok ⟨h, rfl⟩

theorem select (h : Lockstep read taken taken' e e') (index : Int32) :
    Agree (fun a a' => Lockstep read taken taken' a.1 a'.1 ∧ a'.2 = a.2) (e.select index)
      (e'.select index) := by
  unfold Engine.select
  rw [h.chain]
  split
  · exact succeed (h.unmindful (unmindful_assign _ index)).goOn
  · exact .ok ⟨h, rfl⟩

theorem update (h : Lockstep read taken taken' e e') (elapsed : Int) :
    Agree (Lockstep read taken taken') (e.update elapsed) (e'.update elapsed) := by
  unfold Engine.update
  rw [h.chain, h.world]
  split
  · exact .ok h
  · cases e.chain.wait with
    | none => exact h.execute
    | some wait =>
      simp only
      cases wait.poll e.scene.world elapsed with
      | error crash => exact .error crash
      | ok polled =>
        have hparked := h.unmindful (unmindful_park polled.1)
        by_cases hended : polled.2 = true
        · simpa only [ok_bind, hended, if_true] using hparked.goOn
        · simpa only [ok_bind, hended] using .ok hparked

omit [World ω] in
/-- What is handed out is told from then on. -/
theorem takeDiagnostics (h : Lockstep read taken taken' e e') :
    Lockstep read (taken ++ e.diagnostics.toList) (taken' ++ e'.diagnostics.toList)
      e.takeDiagnostics.1 e'.takeDiagnostics.1 := by
  have hall := h.cache.repeats
  rw [h.told, h.told', List.append_nil, List.append_nil] at hall
  refine ⟨⟨?_, hall, h.cache.reads, h.cache.reads', ?_, h.cache.kept, ?_⟩, h.told, h.told'⟩
  · conv_lhs => rw [h.same]
    rfl
  · intro key entry hentry
    obtain ⟨source, hread, hscript, hbefore⟩ := h.cache.faithful key entry hentry
    exact ⟨source, hread, hscript, by simpa [Engine.takeDiagnostics] using hbefore⟩
  · simpa [Engine.takeDiagnostics, h.told, h.told'] using hall

end Lockstep

end Engine

open Engine

variable {ω : Type} [World ω]

/-- Whether a request leaves the cache to the engine. -/
def Request.sparesCache : Request ω → Bool
  | .setCache .. => false
  | _ => true

/-- What a request hands out of the diagnostics. -/
def Request.handed (e : Engine ω) : Request ω → List Fault
  | .takeDiagnostics => e.takeDiagnostics.2
  | _ => []

theorem Engine.Lockstep.answer {read : String → Except Fault String}
    {taken taken' : List Fault} {e e' : Engine ω}
    (h : Lockstep read taken taken' e e') (r : Request ω) (hspares : r.sparesCache = true) :
    Agree (fun a a' => Lockstep read (taken ++ r.handed e) (taken' ++ r.handed e') a.1 a'.1 ∧
      a'.2 = a.2) (e.answer r) (e'.answer r) := by
  have hnone : r.handed e = [] → r.handed e' = [] →
      Agree (fun a a' => Lockstep read taken taken' a.1 a'.1 ∧ a'.2 = a.2) (e.answer r)
        (e'.answer r) →
      Agree (fun a a' => Lockstep read (taken ++ r.handed e) (taken' ++ r.handed e') a.1 a'.1 ∧
        a'.2 = a.2) (e.answer r) (e'.answer r) := by
    intro hhanded hhanded' hagree
    rwa [hhanded, hhanded', List.append_nil, List.append_nil]
  cases r with
  | run path owner => exact hnone rfl rfl (h.runScript path owner)
  | runContent file source owner =>
    exact hnone rfl rfl ((h.reportAll _).start _ owner)
  | execute => exact hnone rfl rfl (Lockstep.succeed h.execute)
  | update elapsed => exact hnone rfl rfl (Lockstep.succeed (h.update elapsed))
  | closeDialog => exact hnone rfl rfl h.closeDialog
  | select index => exact hnone rfl rfl (h.select index)
  | pause =>
    refine hnone rfl rfl (.ok ⟨?_, rfl⟩)
    unfold Engine.pause
    rw [h.chain]
    split
    · exact h.unmindful (unmindful_withChain _)
    · exact h
  | resume =>
    refine hnone rfl rfl (.ok ⟨?_, rfl⟩)
    unfold Engine.resume
    rw [h.chain]
    exact h.unmindful (unmindful_withChain _)
  | stop => exact hnone rfl rfl (.ok ⟨h.unmindful (unmindful_withChain _), rfl⟩)
  | takeDiagnostics => exact .ok ⟨h.takeDiagnostics, rfl⟩
  | observe observed =>
    have hobserve : Unmindful fun e : Engine ω => { e with observed } := fun _ _ _ => rfl
    exact hnone rfl rfl (.ok ⟨h.unmindful hobserve, rfl⟩)
  | setWorld world => exact hnone rfl rfl (.ok ⟨h.withWorld world, rfl⟩)
  | setCache cache taken => cases hspares

/-- What a host does with an engine: it asks for something, or it clears the cache. -/
inductive Operation (ω : Type) where
  | ask (r : Request ω) (spares : r.sparesCache = true)
  | clear

namespace Operation

def isRequest : Operation ω → Bool
  | ask .. => true
  | clear => false

end Operation

/-- An engine with the answers that it gave and the diagnostics that it handed out. -/
structure Session (ω : Type) where
  engine : Engine ω
  results : List (Except Fault Unit) := []
  taken : List Fault := []

namespace Session

/-- All that the chain was told, handed out or not. -/
def told (s : Session ω) : List Fault := s.taken ++ s.engine.diagnostics.toList

def operate (s : Session ω) : Operation ω → Except (Crash ω) (Session ω)
  | .ask r _ => do
    let (engine, result) ← s.engine.answer r
    return ⟨engine, s.results ++ [result], s.taken ++ r.handed s.engine⟩
  | .clear => .ok { s with engine := s.engine.withCache s.engine.scene.cache.clear }

def run : List (Operation ω) → Session ω → Except (Crash ω) (Session ω)
  | [], s => .ok s
  | o :: os, s => do run os (← s.operate o)

/-- Two sessions with the same answers, of engines in lockstep. -/
structure Matches (read : String → Except Fault String) (s s' : Session ω) : Prop where
  results : s'.results = s.results
  engines : Lockstep read s.taken s'.taken s.engine s'.engine

variable {read : String → Except Fault String} {s s' : Session ω}

theorem Matches.ask (h : Matches read s s') (r : Request ω) (hspares : r.sparesCache = true) :
    Agree (Matches read) (s.operate (.ask r hspares)) (s'.operate (.ask r hspares)) := by
  refine (h.engines.answer r hspares).bind fun a a' hanswer => ?_
  obtain ⟨hengines, hresult⟩ := hanswer
  exact .ok ⟨by rw [h.results, hresult], hengines⟩

omit [World ω] in
/-- Only one of the sessions clears its cache. -/
theorem Matches.clear (h : Matches read s s') :
    Matches read s { s' with engine := s'.engine.withCache s'.engine.scene.cache.clear } := by
  have hcache := h.engines.cache.clear h.engines.told'
  refine ⟨h.results, ⟨?_, h.engines.handed, hcache⟩, h.engines.told, rfl⟩
  conv_lhs => rw [h.engines.same]
  rfl

theorem Matches.run (h : Matches read s s') (operations : List (Operation ω)) :
    Agree (Matches read) (run (operations.filter Operation.isRequest) s) (run operations s') := by
  induction operations generalizing s s' with
  | nil => exact .ok h
  | cons operation operations ih =>
    cases operation with
    | ask r hspares => exact (h.ask r hspares).bind fun _ _ hnext => ih hnext
    | clear => exact ih h.clear

end Session

/-- Clearings of the cache between the requests to an engine do not show: every request is answered
as it would be without them, the chain, its world and its random numbers, and the trace are the
same, and the chain is told the same but for faults of lines that it was told before. -/
theorem clearings_invisible (table : CommandTable) (options : Options) (world : ω)
    (read : String → Except Fault String) (trace : Array Event)
    (operations : List (Operation ω)) :
    let begun : Session ω := ⟨fresh table options ⟨world, { read }, trace⟩, [], []⟩
    Agree (fun s s' : Session ω =>
        s'.results = s.results ∧ s'.engine.chain = s.engine.chain ∧
          s'.engine.scene.world = s.engine.scene.world ∧ s'.engine.random = s.engine.random ∧
          s'.engine.scene.trace = s.engine.scene.trace ∧
          Repeats read s.taken s'.taken ∧ Repeats read s.told s'.told)
      (Session.run (operations.filter Operation.isRequest) begun)
      (Session.run operations begun) := by
  intro begun
  have hcache : Cache.Forgets read [] [] { read } { read } :=
    ⟨rfl, rfl, fun _ _ hentry => (by cases hentry), fun _ _ hentry => (by cases hentry), .nil⟩
  have hbegun : Session.Matches read begun begun := ⟨rfl, ⟨rfl, .nil, hcache⟩, rfl, rfl⟩
  refine (hbegun.run operations).imp fun s s' h => ?_
  have hsame := h.engines.same
  have htold := h.engines.cache.repeats
  rw [h.engines.told, h.engines.told', List.append_nil, List.append_nil] at htold
  have hrandom : s'.engine.random = s.engine.random := by
    rw [hsame]
    rfl
  have htrace : s'.engine.scene.trace = s.engine.scene.trace := by
    rw [hsame]
    rfl
  exact ⟨h.results, h.engines.chain, h.engines.world, hrandom, htrace, h.engines.handed, htold⟩

/-- A faulty line is told once more when the cache was cleared. -/
example :
    let read (path : String) : Except Fault String :=
      if path = "a" then .ok "???" else .error { cause := .scriptUnavailable path }
    let begun : Session Recording := ⟨fresh [] {} ⟨{}, { read }, #[]⟩, [], []⟩
    let operations : List (Operation Recording) :=
      [.ask (.run "a" none) rfl, .clear, .ask (.run "a" none) rfl]
    ((Session.run (operations.filter Operation.isRequest) begun).toOption.map fun s =>
        s.told.map Fault.code) = some ["PARSE_LINE_INVALID"] ∧
      ((Session.run operations begun).toOption.map fun s => s.told.map Fault.code) =
        some ["PARSE_LINE_INVALID", "PARSE_LINE_INVALID"] := by
  decide +kernel

end Cutscene
