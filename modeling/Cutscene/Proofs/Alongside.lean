import Cutscene.Proofs.Duration
import Cutscene.Proofs.Failure
import Cutscene.Proofs.Inlining
import Cutscene.Proofs.Suspension

/-! Chains side by side, of which one runs a script with a call in it, and the other one the script
that has the lines of the script that is called in place of the call. Any other instruction does the
same to both. The call takes the first chain to the lines that the second one comes to by itself. -/

namespace Cutscene

/-- What shows of an engine, where its chain stands apart. -/
structure Outward (ω : Type) where
  table : CommandTable
  options : Options
  random : Random
  world : ω
  isRunning : Bool
  wait : Option Wait
  paused : Bool
  owner : Option Owner
  visits : Dict String UInt32

namespace Engine

variable {ω : Type} (e : Engine ω)

def outward : Outward ω where
  table := e.table
  options := e.options
  random := e.random
  world := e.scene.world
  isRunning := e.chain.isRunning
  wait := e.chain.wait
  paused := e.chain.paused
  owner := e.chain.owner
  visits := e.chain.visits

@[simp] theorem outward_withChain (c : Chain) : (e.withChain c).outward =
    { e.outward with
      isRunning := c.isRunning
      wait := c.wait
      paused := c.paused
      owner := c.owner
      visits := c.visits } := rfl

@[simp] theorem outward_withWorld (world : ω) :
    (e.withWorld world).outward = { e.outward with world } := rfl

@[simp] theorem outward_withCache (cache : Cache) : (e.withCache cache).outward = e.outward := rfl

@[simp] theorem outward_report (f : Fault) : (e.report f).outward = e.outward := rfl

@[simp] theorem outward_reportLines : e.reportLines.outward = e.outward := by
  rw [reportLines_eq]
  rfl

@[simp] theorem outward_observe (event : Event) : (e.observe event).outward = e.outward := by
  obtain ⟨trace, h⟩ := observe_eq e event
  rw [h]
  rfl

@[simp] theorem outward_announce : e.announce.outward = e.outward := by
  obtain ⟨trace, h⟩ := announce_eq e
  rw [h]
  rfl

end Engine

open Engine

namespace Inlining

variable (x : Inlining) {ω : Type}

/-- The same is found for both, or each of them finds its own of the two scripts. -/
inductive Found : Except Fault Script → Except Fault Script → Prop where
  | same (found : Except Fault Script) : Found found found
  | inlined : Found (.ok x.outer) (.ok x.inlined)

/-- The caches of the two engines, of which the first one needs the script that is called. -/
structure Shares (c c' : Cache) : Prop where
  finds : ∀ key, x.Found (c.finds key) (c'.finds key)
  inner : c.finds (ScriptPath.normalize (ScriptPath.normalize x.target)) = .ok x.inner

/-- Two engines that look the same from outside and have the same commands and scripts. -/
structure Kin (e e' : Engine ω) : Prop where
  standard : e.table = .standard
  outward : e'.outward = e.outward
  shares : x.Shares e.scene.cache e'.scene.cache

/-- The chains of the two engines stand at corresponding places. -/
structure Along (e e' : Engine ω) : Prop extends x.Kin e e' where
  places : x.Places e.chain.wait.isSome e.chain.position e.chain.callers e'.chain.position
    e'.chain.callers

variable {x} {e e' : Engine ω}

namespace Kin

theorem table (h : x.Kin e e') : e'.table = e.table := congrArg Outward.table h.outward

theorem options (h : x.Kin e e') : e'.options = e.options := congrArg Outward.options h.outward

theorem random (h : x.Kin e e') : e'.random = e.random := congrArg Outward.random h.outward

theorem world (h : x.Kin e e') : e'.scene.world = e.scene.world :=
  congrArg Outward.world h.outward

theorem isRunning (h : x.Kin e e') : e'.chain.isRunning = e.chain.isRunning :=
  congrArg Outward.isRunning h.outward

theorem wait (h : x.Kin e e') : e'.chain.wait = e.chain.wait := congrArg Outward.wait h.outward

theorem paused (h : x.Kin e e') : e'.chain.paused = e.chain.paused :=
  congrArg Outward.paused h.outward

theorem owner (h : x.Kin e e') : e'.chain.owner = e.chain.owner := congrArg Outward.owner h.outward

theorem visits (h : x.Kin e e') : e'.chain.visits = e.chain.visits :=
  congrArg Outward.visits h.outward

theorem withWorld (h : x.Kin e e') (world : ω) : x.Kin (e.withWorld world) (e'.withWorld world) :=
  ⟨h.standard, by simp [h.outward], h.shares⟩

theorem withChain (h : x.Kin e e') {c c' : Chain} (hrun : c'.isRunning = c.isRunning)
    (hwait : c'.wait = c.wait) (hpaused : c'.paused = c.paused) (howner : c'.owner = c.owner)
    (hvisits : c'.visits = c.visits) : x.Kin (e.withChain c) (e'.withChain c') :=
  ⟨h.standard, by simp [h.outward, hrun, hwait, hpaused, howner, hvisits], h.shares⟩

theorem report (h : x.Kin e e') (f f' : Fault) : x.Kin (e.report f) (e'.report f') :=
  ⟨h.standard, by simp [h.outward], h.shares⟩

theorem observe (h : x.Kin e e') (event event' : Event) :
    x.Kin (e.observe event) (e'.observe event') :=
  ⟨by simpa using h.standard, by simp [h.outward], by simpa using h.shares⟩

theorem announce (h : x.Kin e e') : x.Kin e.announce e'.announce :=
  ⟨by simpa using h.standard, by simp [h.outward], by simpa using h.shares⟩

theorem reportLines (h : x.Kin e e') : x.Kin e.reportLines e'.reportLines := by
  refine ⟨by simpa using h.standard, by simp [h.outward], ?_⟩
  rw [reportLines_eq, reportLines_eq]
  exact ⟨h.shares.finds, h.shares.inner⟩

theorem view [World ω] (h : x.Kin e e') (call : Call) : e'.view call = e.view call := by
  simp only [Engine.view, h.world, h.owner]

end Kin

/-- Nothing shows of what happened to the first engine alone. -/
theorem Kin.of_outward {b : Engine ω} (h : x.Kin e e') (houtward : b.outward = e.outward)
    (hfinds : b.scene.cache.finds = e.scene.cache.finds) : x.Kin b e' := by
  have htable : b.table = e.table := congrArg Outward.table houtward
  refine ⟨htable.trans h.standard, h.outward.trans houtward.symm, ?_, ?_⟩
  · rw [hfinds]
    exact h.shares.finds
  · rw [hfinds]
    exact h.shares.inner

namespace Along

theorem of_kin {b b' : Engine ω} (h : x.Along e e') (hkin : x.Kin b b')
    (hchain : b.chain = e.chain) (hchain' : b'.chain = e'.chain) : x.Along b b' := by
  refine ⟨hkin, ?_⟩
  rw [hchain, hchain']
  exact h.places

theorem announce (h : x.Along e e') : x.Along e.announce e'.announce :=
  h.of_kin h.toKin.announce (by simp) (by simp)

theorem isHeld (h : x.Along e e') : e'.isHeld = e.isHeld := by
  simp only [Engine.isHeld, h.isRunning, h.paused, h.wait]

end Along

variable (x) in
/-- Both chains are at a line that is not the inlined call, and nothing holds them there. -/
structure Poised (e e' : Engine ω) : Prop extends x.Kin e e' where
  free : e.chain.wait = none
  places : x.Places true e.chain.position e.chain.callers e'.chain.position e'.chain.callers

namespace Poised

theorem along (h : x.Poised e e') : x.Along e e' := ⟨h.toKin, h.places.of_busy⟩

theorem of_kin {b b' : Engine ω} (h : x.Poised e e') (hkin : x.Kin b b')
    (hchain : b.chain = e.chain) (hchain' : b'.chain = e'.chain) : x.Poised b b' := by
  refine ⟨hkin, by rw [hchain, h.free], ?_⟩
  rw [hchain, hchain']
  exact h.places

theorem withWorld (h : x.Poised e e') (world : ω) :
    x.Poised (e.withWorld world) (e'.withWorld world) :=
  h.of_kin (h.toKin.withWorld world) rfl rfl

theorem reportLines (h : x.Poised e e') : x.Poised e.reportLines e'.reportLines :=
  h.of_kin h.toKin.reportLines (by simp) (by simp)

theorem advance (h : x.Poised e e') : x.Along e.advance e'.advance := by
  refine ⟨h.withChain h.isRunning h.wait h.paused h.owner h.visits, ?_⟩
  have hwait : (e.withChain e.chain.advance).chain.wait = none := h.free
  have hplaces := h.places.advance
  rw [← Chain.position_advance, ← Chain.position_advance] at hplaces
  rw [Engine.advance, hwait]
  exact hplaces

theorem skipFaulty (h : x.Poised e e') (file file' : String) (call : Call) (f : Fault) :
    x.Along (e.skipFaulty file call f) (e'.skipFaulty file' call f) :=
  (h.of_kin (h.report _ _) rfl rfl).advance

theorem park [World ω] (h : x.Poised e e') (wait : Wait) : x.Along (e.park wait) (e'.park wait) :=
  ⟨h.withChain h.isRunning rfl h.paused h.owner h.visits, h.places⟩

theorem drawn (h : x.Poised e e') (random : Random) :
    x.Poised { e with random } { e' with random } := by
  have houtward : ∀ e : Engine ω, ({ e with random } : Engine ω).outward =
      { e.outward with random } := fun _ => rfl
  have hkin : x.Kin { e with random } { e' with random } :=
    ⟨h.standard, by rw [houtward, houtward, h.outward], h.shares⟩
  exact h.of_kin hkin rfl rfl

end Poised

variable (x) in
/-- What the same action comes to in both engines: the chains have run their lines and are to go on,
or they have gone where they are. -/
inductive Outcome : Acted ω → Acted ω → Prop where
  | onward {a a' : Engine ω} (course : Except Fault Course) (poised : x.Poised a a') :
      Outcome (a, course) (a', course)
  | there {a a' : Engine ω} {course : Course} (along : x.Along a a') (moves : course ≠ .next)
      (keeps : course ≠ .stalled) : Outcome (a, .ok course) (a', .ok course)

theorem Outcome.follow {a a' : Acted ω} (h : x.Outcome a a') (file file' : String) (call : Call) :
    x.Along (a.1.follow file call a.2) (a'.1.follow file' call a'.2) := by
  cases h with
  | @onward a a' course poised =>
    have hpoised := poised.reportLines
    cases course with
    | error f => exact hpoised.skipFaulty file file' call f
    | ok course =>
      cases course with
      | next => exact hpoised.advance
      | moved => exact hpoised.along
      | entered => exact hpoised.along.announce
      | parked => exact hpoised.along
      | stalled => exact hpoised.skipFaulty file file' call _
  | @there a a' course along moves keeps =>
    have hstays : x.Along a.reportLines a'.reportLines :=
      along.of_kin along.toKin.reportLines (by simp) (by simp)
    cases course with
    | next => exact absurd rfl moves
    | moved => exact hstays
    | entered => exact hstays.announce
    | parked => exact hstays
    | stalled => exact absurd rfl keeps

section Steady

variable [World ω]

/-- An action that does not steer does the same to both. -/
theorem Poised.act (h : x.Poised e e') {action : Action} (hsteady : action.steers = false) :
    Agree x.Outcome (e.act action) (e'.act action) := by
  cases action with
  | proceed => exact .ok (.onward _ h)
  | perform effect wait =>
    cases wait with
    | none =>
      exact (agree_perform h.world h.withWorld effect).bind fun _ _ hdone => .ok (.onward _ hdone)
    | some wait =>
      exact agree_performAndPark h.world h.wait effect wait fun world =>
        .there ((h.withWorld world).park wait) (by simp) (by simp)
  | park wait =>
    exact (agree_beginWait h.world h.wait wait (h.park wait)).bind fun _ _ hparked =>
      .ok (.there hparked (by simp) (by simp))
  | assign name value =>
    simp only [Engine.act, Engine.assign, h.world]
    exact .ok (.onward _ (h.withWorld _))
  | draw name a b =>
    simp only [Engine.act, Engine.draw, Engine.assign, h.random, h.world]
    exact .ok (.onward _ ((h.drawn _).withWorld _))
  | talk first last =>
    refine agree_talk h.world h.wait (fun f => .onward (.error f) h) (fun world wait => ?_)
      first last
    exact .there ((h.withWorld world).park wait) (by simp) (by simp)
  | jump label => cases hsteady
  | run target => cases hsteady
  | goBack => cases hsteady
  | stay => exact .ok (.onward _ h)
  | stall =>
    simp only [Engine.act, h.wait]
    exact .ok (.onward _ h)

end Steady

theorem Shares.of_finds {c : Cache}
    (h : c.finds (ScriptPath.normalize (ScriptPath.normalize x.target)) = .ok x.inner) :
    x.Shares c c :=
  ⟨fun _ => .same _, h⟩

theorem found_search {find find' : String → Except Fault Script}
    (h : ∀ key, x.Found (find key) (find' key)) (paths : List String)
    (nothing : Except Fault Script) :
    x.Found ((Cache.search find paths).getD nothing) ((Cache.search find' paths).getD nothing) := by
  -- by induction on the candidates: both searches end at the same one
  induction paths with
  | nil => exact .same nothing
  | cons path rest ih =>
    have hfirst := h (ScriptPath.normalize path)
    unfold Cache.search
    generalize find (ScriptPath.normalize path) = found at hfirst
    generalize find' (ScriptPath.normalize path) = found' at hfirst
    cases hfirst with
    | inlined => exact .inlined
    | same found =>
      cases found with
      | ok script => exact .same _
      | error f =>
        by_cases hnot : Cache.isNotFound f = true
        · simpa only [hnot, if_true] using ih
        · simpa only [hnot] using .same _

theorem Shares.loadFirst {c c' : Cache} (h : x.Shares c c') (paths : List String) :
    x.Shares (c.loadFirst paths).1 (c'.loadFirst paths).1 ∧
      x.Found ((c.loadFirst paths).2.map Cached.script)
        ((c'.loadFirst paths).2.map Cached.script) := by
  obtain ⟨hfinds, hfound⟩ := c.loadFirst_finds paths
  obtain ⟨hfinds', hfound'⟩ := c'.loadFirst_finds paths
  refine ⟨⟨?_, ?_⟩, ?_⟩
  · rw [hfinds, hfinds']
    exact h.finds
  · rw [hfinds]
    exact h.inner
  · rw [hfound, hfound']
    exact found_search h.finds paths _

theorem Found.of_error {found : Except Fault Script} {f : Fault} (h : x.Found found (.error f)) :
    found = .error f := by
  cases h with
  | same found => rfl

theorem Found.error_eq {found' : Except Fault Script} {f : Fault} (h : x.Found (.error f) found') :
    found' = .error f := by
  cases h with
  | same found => rfl

/-- What both find begins at corresponding places. -/
theorem Found.beside {script script' : Script} (h : x.Found (.ok script) (.ok script')) :
    x.Beside false ⟨script, 0⟩ ⟨script', 0⟩ := by
  cases h with
  | same found => exact .same _
  | inlined =>
    have hstart : x.Beside false ⟨x.outer, 0⟩ ⟨x.inlined, x.moved 0⟩ := .moved 0 fun h => by cases h
    rwa [moved_of_le (Nat.zero_le _)] at hstart

variable (x) in
/-- Both chains are at corresponding lines of corresponding scripts. -/
structure Abreast (p p' : Position) (e e' : Engine ω) : Prop extends x.Poised e e' where
  stands : e.chain.position = some p
  stands' : e'.chain.position = some p'
  beside : x.Beside true p p'
  parked : List.Forall₂ (x.Beside true) e.chain.callers e'.chain.callers

namespace Abreast

variable {p p' : Position}

theorem script (h : x.Abreast p p' e e') : e.chain.script? = some p.script :=
  (Chain.position_eq_some.mp h.stands).1

theorem script' (h : x.Abreast p p' e e') : e'.chain.script? = some p'.script :=
  (Chain.position_eq_some.mp h.stands').1

theorem file?_eq (h : x.Abreast p p' e e') : e'.chain.file? = e.chain.file? := by
  simp only [Chain.file?, h.script, h.script', Option.map_some, h.beside.file_eq]

/-- What is called is entered by both, or by none of them. -/
theorem call [World ω] (h : x.Abreast p p' e e') (target : String) :
    x.Outcome (e.call target) (e'.call target) := by
  -- neither chain is in the inlined call, so that both have as many callers, in the same files
  have hdepth : e'.chain.depth = e.chain.depth := h.parked.length_eq.symm
  have hcandidates : e'.candidates target = e.candidates target := by
    simp only [candidates, h.world, h.file?_eq]
  obtain ⟨hshares, hfound⟩ := h.shares.loadFirst (e.candidates target)
  unfold Engine.call
  rw [h.options, hdepth, hcandidates]
  split
  · exact .onward _ h.toPoised
  · generalize e.scene.cache.loadFirst (e.candidates target) = loaded at hshares hfound
    generalize e'.scene.cache.loadFirst (e.candidates target) = loaded' at hshares hfound
    obtain ⟨cache, found⟩ := loaded
    obtain ⟨cache', found'⟩ := loaded'
    have hkin : x.Kin (e.withCache cache) (e'.withCache cache') :=
      ⟨h.standard, by simp [h.outward], hshares⟩
    cases found with
    | error f =>
      cases found' with
      | error f' =>
        obtain rfl := Except.error.inj hfound.error_eq
        exact .onward _ (h.of_kin hkin rfl rfl)
      | ok entry' => cases hfound.error_eq
    | ok entry =>
      cases found' with
      | error f' => cases hfound.of_error
      | ok entry' =>
        have hchain : (e.withCache cache).chain = e.chain := rfl
        simp only [withCache_toRunner, h.script, h.script', Option.isSome_some, if_true]
        refine .there ⟨hkin.withChain rfl rfl h.paused h.owner h.visits, ?_⟩ (by simp) (by simp)
        simp only [withChain_chain, Chain.callers_enter h.stands, Chain.callers_enter h.stands']
        exact .beside hfound.beside (.cons h.beside h.parked)

/-- The passage of a label is counted by both, or by none of them. -/
theorem pass [World ω] (h : x.Abreast p p' e e') (label : String) :
    Agree (x.Abreast p p') (e.pass label) (e'.pass label) := by
  have hkey : e'.chain.hereKey label = e.chain.hereKey label := by
    simp only [Chain.hereKey, h.file?_eq]
  have hcount : e'.chain.visitsOf (e.chain.hereKey label) =
      e.chain.visitsOf (e.chain.hereKey label) := by simp only [Chain.visitsOf, h.visits]
  unfold Engine.pass
  have hcan : e'.chain.canCount label = e.chain.canCount label := by
    simp only [Chain.canCount, hkey, hcount]
  rw [hcan, hkey, h.world]
  split
  · have hkin : x.Kin (e.withChain (e.chain.countVisit label))
        (e'.withChain (e'.chain.countVisit label)) := by
      refine h.withChain h.isRunning h.wait h.paused h.owner ?_
      simp only [Chain.countVisit, hkey, hcount, h.visits]
    exact .ok ⟨⟨hkin, h.free, h.places⟩, h.stands, h.stands', h.beside, h.parked⟩
  · exact .error _

theorem jump [World ω] (h : x.Abreast p p' e e') (label : String) :
    Agree x.Outcome (e.jump label) (e'.jump label) := by
  unfold Engine.jump
  simp only [h.script, h.script', h.beside.file_eq]
  rcases h.beside.marker (Label.normalize label) with ⟨hm, hm'⟩ | ⟨m, m', hm, hm', hbeside⟩
  · simp only [hm, hm']
    exact .ok (.onward _ h.toPoised)
  · simp only [hm, hm']
    refine (h.pass _).bind fun b b' hpassed => .ok (.there ⟨?_, ?_⟩ (by simp) (by simp))
    · exact hpassed.withChain hpassed.isRunning hpassed.wait hpassed.paused hpassed.owner
        hpassed.visits
    · rw [Chain.withLine_eq hpassed.stands, Chain.withLine_eq hpassed.stands']
      have hwait : (b.chain.standingAt ⟨p.script, m + 1⟩).wait = none := hpassed.free
      simp only [withChain_chain, hwait, Chain.position_standingAt]
      exact .beside hbeside hpassed.parked

theorem goBack (h : x.Abreast p p' e e') :
    x.Along (e.withChain e.chain.goBack) (e'.withChain e'.chain.goBack) := by
  have hparked := h.parked
  generalize hc : e.chain.callers = callers at hparked
  generalize hc' : e'.chain.callers = callers' at hparked
  cases hparked with
  | nil =>
    rw [Chain.goBack_alone h.stands hc, Chain.goBack_alone h.stands' hc']
    refine ⟨h.withChain h.isRunning h.wait h.paused h.owner h.visits, ?_⟩
    have hwait : (e.chain.standingAt ⟨p.script, p.script.length⟩).wait = none := h.free
    simp only [withChain_chain, hwait, Chain.position_standingAt]
    exact .beside h.beside.end h.parked
  | cons hcaller hrest =>
    rw [Chain.goBack_cons hc, Chain.goBack_cons hc']
    refine ⟨h.withChain h.isRunning h.wait h.paused h.owner h.visits, ?_⟩
    have hwait : ∀ q callers, (e.chain.behind q callers).wait = none := fun _ _ => h.free
    simp only [withChain_chain, hwait]
    exact .beside hcaller.advanced hrest

theorem observe (h : x.Abreast p p' e e') (event event' : Event) :
    x.Abreast p p' (e.observe event) (e'.observe event') :=
  ⟨h.of_kin (h.toKin.observe event event') (by simp) (by simp), by simpa using h.stands,
    by simpa using h.stands', h.beside, by simpa using h.parked⟩

end Abreast

section Steps

variable [World ω] {p p' : Position} {i : Instruction}

/-- Any call but the inlined one does the same to both. -/
theorem Poised.dispatch (h : x.Poised e e') {call : Call}
    (hmay : call.maySteer = false ∨ x.Abreast p p' e e') (file file' : String) :
    Agree x.Along (e.dispatch file call) (e'.dispatch file' call) := by
  rw [dispatch_eq, dispatch_eq]
  -- the same command is asked with the same view, and only an action that steers can tell them apart
  rw [h.table, h.view]
  cases hresolves : e.table.resolve call with
  | error cause => exact .ok (h.skipFaulty file file' call _)
  | ok command =>
    cases hasks : command.handler (e.view call) with
    | error f =>
      simp only [hasks]
      exact .ok ((Outcome.onward (.error f) h).follow file file' call)
    | ok action =>
      have hact : Agree x.Outcome (e.act action) (e'.act action) := by
        by_cases hsteers : action.steers = true
        · rcases hmay with hsteady | habreast
          · have hstandard : CommandTable.standard.resolve (e.view call).call = .ok command :=
              h.standard ▸ hresolves
            rw [CommandTable.standard_steady hstandard hasks hsteady] at hsteers
            cases hsteers
          · cases action with
            | jump label => exact habreast.jump label
            | run target => exact .ok (habreast.call target)
            | goBack => exact .ok (.there habreast.goBack (by simp) (by simp))
            | _ => cases hsteers
        · exact h.act (Bool.eq_false_iff.mpr hsteers)
      simp only [hasks]
      exact hact.bind fun acted acted' hacted => .ok (hacted.follow file file' call)

theorem Poised.step (h : x.Poised e e') (hmay : i.isSteady = true ∨ x.Abreast p p' e e') :
    Agree x.Along (e.step p i) (e'.step p' i) := by
  cases i with
  | marker name literal line =>
    rcases hmay with hsteady | habreast
    · cases hsteady
    · exact (habreast.pass name).bind fun _ _ hpassed => .ok hpassed.toPoised.advance
  | call c =>
    have hobserved := h.of_kin
      (h.observe (.reached p.script.file p.line) (.reached p'.script.file p'.line))
      (by simp) (by simp)
    refine hobserved.dispatch (hmay.imp ?_ fun habreast => habreast.observe _ _) _ _
    intro hsteady
    simpa [Instruction.isSteady] using hsteady

theorem asks_call (hstandard : e.table = .standard) : e.Asks x.call (.run x.target) := by
  have hone : x.call.parameters.length = 1 := by rw [x.names]; rfl
  refine ⟨_, by rw [hstandard]; exact CommandTable.standard_runScript x.runs hone, ?_⟩
  have hraw : (e.view x.call).raw 0 = .ok x.target := by
    simp [View.raw, Engine.view, x.names]
  have htext : (e.view x.call).text 0 = .ok x.target := by
    rw [View.text, hraw, ok_map, x.constant]
  simp only [Command.runScript, htext]
  rfl

theorem candidates_target (e : Engine ω) :
    e.candidates x.target = [ScriptPath.normalize x.target] := by
  simp only [candidates, ScriptPath.candidates, x.placed, if_true]

/-- The inlined call takes the first chain into the script that is called. The second chain stays
where it is, before the lines of that script. -/
theorem Along.enter_call (h : x.Along e e') (hheld : e.isHeld = false)
    (hp : e.chain.position = some ⟨x.outer, x.line⟩)
    (hp' : e'.chain.position = some ⟨x.inlined, x.line⟩)
    (hparked : List.Forall₂ (x.Beside true) e.chain.callers e'.chain.callers)
    (hroom : e.chain.depth + 1 ≤ e.options.maxDepth) :
    ∃ b, e.step ⟨x.outer, x.line⟩ (.call x.call) = .ok b ∧ x.Along b e' := by
  have hfree := wait_of_free hheld
  have hrun := isRunning_of_free hheld
  have hscript : e.chain.script?.isSome = true := by rw [(Chain.position_eq_some.mp hp).1]; rfl
  let arrived := e.observe (.reached x.outer.file x.line)
  have harrived : arrived.chain = e.chain := by simp [arrived]
  have hasks : arrived.Asks x.call (.run x.target) :=
    asks_call (by simpa [arrived] using h.standard)
  have hcache : arrived.scene.cache = e.scene.cache := by simp [arrived]
  have hoptions : arrived.options = e.options := by simp [arrived]
  obtain ⟨hfinds, hfound⟩ := e.scene.cache.loadFirst_finds [ScriptPath.normalize x.target]
  simp only [Cache.search, h.shares.inner, Option.getD_some] at hfound
  cases hload : e.scene.cache.loadFirst [ScriptPath.normalize x.target] with
  | mk cache found =>
    rw [hload] at hfinds hfound
    cases found with
    | error f => cases hfound
    | ok entry =>
      have hinner : entry.script = x.inner := Except.ok.inj hfound
      let entered := (arrived.withCache cache).withChain (e.chain.enter x.inner)
      have hcall : arrived.call x.target = (entered, .ok .entered) := by
        simp only [Engine.call, hoptions, harrived, candidates_target, hcache, hload,
          Nat.not_lt.mpr hroom, if_false, hinner, withCache_toRunner, hscript, if_true, entered]
      have houtward : entered.outward = e.outward := by
        simp only [entered, outward_withChain, outward_withCache, arrived, outward_observe,
          Chain.enter, ← hfree, ← hrun]
        rfl
      have hshares : entered.reportLines.announce.scene.cache.finds = e.scene.cache.finds := by
        rw [announce_cache, reportLines_eq]
        exact hfinds
      refine ⟨entered.reportLines.announce, ?_, h.toKin.of_outward (by simp [houtward]) hshares, ?_⟩
      · rw [Engine.step, dispatch_of_asks hasks, act, hcall]
        rfl
      · have hinside : x.Places false (some ⟨x.inner, 0⟩) (⟨x.outer, x.line⟩ :: e.chain.callers)
            (some ⟨x.inlined, x.line + 0⟩) e'.chain.callers :=
          .inside (Nat.zero_le _) (fun h => by cases h) hparked
        have hposition : (e.chain.enter x.inner).position = some ⟨x.inner, 0⟩ := rfl
        have hwait : (e.chain.enter x.inner).wait = none := rfl
        simpa [entered, hposition, hwait, Chain.callers_enter hp x.inner, hp'] using hinside

end Steps

end Inlining

end Cutscene
