import Cutscene.Proofs.Duration
import Cutscene.Proofs.Failure
import Cutscene.Proofs.Unobserved

/-! What a trace tells. An observed run leaves one event for every script that it enters and for
every call that it runs, in order, and none for anything else. A script that is open was entered
before any of its calls is run, at an event of its own. -/

namespace Cutscene

/-- What of a run shows in a trace: a script is entered, or a call is run where it stands. -/
inductive Sighting where
  | enters (script : Script)
  | runs (p : Position) (call : Call)

def Sighting.event : Sighting → Event
  | enters script => .started script.file script.length script.literals
  | runs p _ => .reached p.script.file p.line

/-- The scripts that are open, innermost first. -/
def Chain.scripts (c : Chain) : List Script := c.script?.toList ++ c.callers.map Position.script

variable {ω : Type} [World ω]

/-- Whether an engine that is observed stays so. -/
def Request.keepsWatch : Request ω → Bool
  | .observe observed => observed
  | _ => true

/-- A call asks for a script that is found, and there is room to enter it. -/
inductive Engine.Launches (e : Engine ω) (c : Call) : Script → Prop where
  | mk {target : String} {cache : Cache} {entry : Cached} (asks : e.Asks c (.run target))
      (room : e.chain.depth + 1 ≤ e.options.maxDepth)
      (found : e.scene.cache.loadFirst (e.candidates target) = (cache, .ok entry)) :
      Launches e c entry.script

/-- So does a host, by a path or with the text itself. -/
inductive Engine.Admits (e : Engine ω) : Request ω → Script → Prop where
  | run {path : String} {owner : Option Owner} {cache : Cache} {entry : Cached}
      (found : e.scene.cache.loadFirst (e.candidates path) = (cache, .ok entry))
      (room : e.nextDepth ≤ e.options.maxDepth) : Admits e (.run path owner) entry.script
  | runContent {file source : String} {owner : Option Owner}
      (room : e.nextDepth ≤ e.options.maxDepth) :
      Admits e (.runContent file source owner)
        (Script.parse (ScriptPath.normalize file) source).script

namespace Phase

/-- The call that the next round runs, if it runs one. -/
def called? (s : Phase ω) : Option Sighting :=
  s.chain.position.bind fun p => match s.next? with
    | some (.call c) => some (.runs p c)
    | _ => none

/-- The script that a turn has entered, if one more is open after it than before. -/
def entered? (s t : Phase ω) : Option Script :=
  if s.chain.scripts.length < t.chain.scripts.length then t.chain.script? else none

/-- The script that a turn is to enter: what the host or the next call asks for. -/
inductive Starts (s : Phase ω) : Option (Request ω) → Script → Prop where
  | request {e : Engine ω} {r : Request ω} {script : Script} (rests : s = .resting e)
      (admits : e.Admits r script) : Starts s (some r) script
  | call {c : Call} {script : Script} (next : s.next? = some (.call c))
      (launches : s.engine.Launches c script) : Starts s none script

end Phase

namespace Chain

theorem scripts_enter (c : Chain) (script : Script) :
    (c.enter script).scripts = script :: c.scripts := by
  cases hp : c.position with
  | none =>
    simp only [scripts, callers_enter_first hp, position_eq_none.mp hp]
    rfl
  | some p =>
    simp only [scripts, callers_enter hp, (position_eq_some.mp hp).1]
    rfl

theorem scripts_finish (c : Chain) : c.finish.scripts <:+ c.scripts := List.suffix_append _ _

theorem scripts_leave {c c' : Chain} (h : c.leave? = some c') : c'.scripts <:+ c.scripts := by
  obtain ⟨caller, callers, hcallers, rfl⟩ := leave?_eq_some.mp h
  simp only [scripts, hcallers, List.map_cons]
  exact List.suffix_append _ _

theorem scripts_goBack (c : Chain) : c.goBack.scripts <:+ c.scripts := by
  unfold goBack
  cases hleave : c.leave? with
  | some c' => exact scripts_leave hleave
  | none => exact List.suffix_rfl

end Chain

namespace Engine

variable {e e' : Engine ω} {call : Call} {action : Action} {file : String} {script : Script}
  {r : Request ω} {o : Opening ω}

theorem Asks.unique {action' : Action} (h : e.Asks call action) (h' : e.Asks call action') :
    action = action' := by
  obtain ⟨command, hresolves, hasks⟩ := h
  obtain ⟨command', hresolves', hasks'⟩ := h'
  obtain rfl : command = command' := Except.ok.inj (hresolves.symm.trans hresolves')
  exact Except.ok.inj (hasks.symm.trans hasks')

/-- From an observed engine to another one no script was entered and nothing traced, or one was, on
top of those that are open, and just that was traced. -/
inductive Moves (e e' : Engine ω) : Option Script → Prop where
  | within (observed : e'.observed = true) (below : e'.chain.scripts <:+ e.chain.scripts)
      (silent : e'.scene.trace = e.scene.trace) : Moves e e' none
  | enters {script : Script} (observed : e'.observed = true)
      (stands : e'.chain.position = some ⟨script, 0⟩)
      (above : e'.chain.scripts = script :: e.chain.scripts)
      (told : e'.scene.trace =
        e.scene.trace.push (.started script.file script.length script.literals)) :
      Moves e e' (some script)

omit [World ω] in
theorem moves_of_eq (hobserved : e'.observed = true) (hchain : e'.chain = e.chain)
    (hsilent : e'.scene.trace = e.scene.trace) : e.Moves e' none :=
  .within hobserved (hchain ▸ List.suffix_rfl) hsilent

omit [World ω] in
theorem moves_announce {c : Chain} (hobserved : e'.observed = true)
    (hchain : e'.chain = c.enter script) (hscripts : c.scripts = e.chain.scripts)
    (hsilent : e'.scene.trace = e.scene.trace) : e.Moves e'.announce (some script) := by
  have hannounced : e'.announce =
      e'.observe (.started script.file script.length script.literals) := by
    simp only [announce, hchain]
    rfl
  refine .enters ?_ ?_ ?_ ?_
  · simpa using hobserved
  · simp only [announce_toRunner, hchain]
    rfl
  · simp [hchain, Chain.scripts_enter, hscripts]
  · rw [hannounced, observe, if_pos hobserved, ← hsilent]

omit [World ω] in
theorem reportLines_trace (e : Engine ω) :
    e.reportLines.observed = e.observed ∧ e.reportLines.scene.trace = e.scene.trace := by
  rw [reportLines_eq]
  exact ⟨rfl, rfl⟩

omit [World ω] in
/-- To follow the course of an action traces nothing, unless a script was entered. -/
theorem follow_trace (e : Engine ω) (file : String) (call : Call) {course : Except Fault Course}
    (hcourse : course ≠ .ok .entered) :
    (e.follow file call course).observed = e.observed ∧
      (e.follow file call course).scene.trace = e.scene.trace := by
  have hlines := reportLines_trace e
  cases course with
  | error f => exact hlines
  | ok course =>
    cases course with
    | entered => exact absurd rfl hcourse
    | _ => exact hlines

theorem Acts.trace {course : Except Fault Course} (h : e.Acts action e' course) :
    e'.observed = e.observed ∧ e'.scene.trace = e.scene.trace := by
  cases h with
  | _ => exact ⟨rfl, rfl⟩

/-- Unless a script is entered on top of another one, an action opens none. -/
theorem Acts.below {course : Except Fault Course} (h : e.Acts action e' course)
    (hinside : e.chain.script?.isSome = true) (hcourse : course ≠ .ok .entered) :
    (e'.follow file call course).chain.scripts <:+ e.chain.scripts := by
  rw [follow_chain]
  cases h with
  | run room found inside => exact absurd rfl hcourse
  | runFirst room found lost =>
    rw [lost] at hinside
    cases hinside
  | goBack => exact e.chain.scripts_goBack
  | _ => exact List.suffix_rfl

theorem Acts.launches_nothing {course : Except Fault Course} (h : e.Acts action e' course)
    (hinside : e.chain.script?.isSome = true) (hasks : e.Asks call action)
    (hcourse : course ≠ .ok .entered) : ¬e.Launches call script := by
  rintro ⟨asks, room, found⟩
  obtain rfl := hasks.unique asks
  cases h with
  | run room' found' inside => exact hcourse rfl
  | runFirst room' found' lost =>
    rw [lost] at hinside
    cases hinside
  | runNothing missing =>
    rw [found] at missing
    cases (Prod.mk.inj missing).2
  | runTooDeep full => omega

theorem Launches.unique {script' : Script} (h : e.Launches call script)
    (h' : e.Launches call script') : script = script' := by
  obtain ⟨asks, room, found⟩ := h
  obtain ⟨asks', room', found'⟩ := h'
  obtain ⟨rfl⟩ := asks.unique asks'
  rw [found] at found'
  rw [Except.ok.inj (Prod.mk.inj found').2]

theorem Admits.unique {script' : Script} (h : e.Admits r script) (h' : e.Admits r script') :
    script = script' := by
  cases h with
  | run found room =>
    cases h' with
    | run found' room' =>
      rw [found] at found'
      rw [Except.ok.inj (Prod.mk.inj found').2]
  | runContent room =>
    cases h'
    rfl

theorem Acts.launches (h : e.Acts action e' (.ok .entered)) (hasks : e.Asks call action)
    (hobserved : e.observed = true) :
    ∃ script, e.Launches call script ∧
      e.Moves (e'.follow file call (.ok .entered)) (some script) := by
  obtain ⟨hobserved', htrace'⟩ := h.trace
  obtain ⟨hlines, hsilent⟩ := reportLines_trace e'
  cases h with
  | @run target cache entry room found inside =>
    refine ⟨entry.script, .mk hasks room found, ?_⟩
    exact moves_announce (hlines.trans (hobserved'.trans hobserved))
      (c := e.chain) (reportLines_chain _) rfl (hsilent.trans htrace')

/-- A call enters the script that it launches, and none if it launches none. -/
theorem moves_of_dispatch (hobserved : e.observed = true)
    (hinside : e.chain.script?.isSome = true) (h : e.dispatch file call = .ok e') :
    (∃ script, e.Launches call script ∧ e.Moves e' (some script)) ∨
      (∀ script, ¬e.Launches call script) ∧ e.Moves e' none := by
  cases dispatched_of_dispatch h with
  | unresolved unknown =>
    refine Or.inr ⟨?_, .within hobserved List.suffix_rfl rfl⟩
    rintro script ⟨⟨command, resolves, asks⟩, room, found⟩
    cases unknown.symm.trans resolves
  | @refused command f resolves refuses =>
    obtain ⟨hwatched, htrace⟩ := follow_trace e file call
      (show (.error f : Except Fault Course) ≠ .ok .entered from nofun)
    refine Or.inr ⟨?_, .within (hwatched.trans hobserved) ?_ htrace⟩
    · rintro script ⟨⟨command', resolves', asks⟩, room, found⟩
      obtain rfl := Except.ok.inj (resolves.symm.trans resolves')
      cases refuses.symm.trans asks
    · rw [follow_chain]
      exact List.suffix_rfl
  | @acted action e₁ course asks acts =>
    by_cases hcourse : course = .ok .entered
    · subst hcourse
      exact Or.inl (acts.launches asks hobserved)
    · obtain ⟨hobserved₁, htrace₁⟩ := acts.trace
      obtain ⟨hwatched, htrace⟩ := follow_trace e₁ file call hcourse
      exact Or.inr ⟨fun script => acts.launches_nothing hinside asks hcourse,
        .within (hwatched.trans (hobserved₁.trans hobserved)) (acts.below hinside hcourse)
          (htrace.trans htrace₁)⟩

omit [World ω] in
/-- A script is entered if there is room. -/
theorem moves_starts (hobserved : e'.observed = true) (hchain : e'.chain = e.chain)
    (hoptions : e'.options = e.options) (hsilent : e'.scene.trace = e.scene.trace)
    (script : Script) (owner : Option Owner) :
    e.nextDepth ≤ e.options.maxDepth ∧ e.Moves (e'.starts script owner).phase.engine (some script) ∨
      ¬e.nextDepth ≤ e.options.maxDepth ∧
        e.Moves (e'.starts script owner).phase.engine none := by
  have hdepth : e'.nextDepth = e.nextDepth := by simp only [nextDepth, hchain]
  unfold starts
  rw [hdepth, hoptions]
  split
  · next hfull => exact Or.inr ⟨Nat.not_le.mpr hfull, moves_of_eq hobserved hchain hsilent⟩
  · next hroom =>
    refine Or.inl ⟨Nat.not_lt.mp hroom, ?_⟩
    change e.Moves (e'.withChain
      ({ e'.chain with owner := owner <|> e'.chain.owner }.enter script)).announce (some script)
    have hscripts : e'.chain.scripts = e.chain.scripts := by rw [hchain]
    exact moves_announce hobserved rfl hscripts hsilent

omit [World ω] in
theorem moves_goesOn (hobserved : e'.observed = true)
    (hscripts : e'.chain.scripts = e.chain.scripts) (hsilent : e'.scene.trace = e.scene.trace) :
    e.Moves e'.goesOn.phase.engine none := by
  refine .within hobserved ?_ hsilent
  rw [← hscripts]
  exact List.suffix_rfl

/-- A request enters the script that it is admitted with, and none if it is not. -/
theorem moves_of_opened (hobserved : e.observed = true) (hkept : r.keepsWatch = true)
    (h : e.Opened r o) :
    (∃ script, e.Admits r script ∧ e.Moves o.phase.engine (some script)) ∨
      (∀ script, ¬e.Admits r script) ∧ e.Moves o.phase.engine none := by
  have hread : ∀ cache, (e.withCache cache).reportLines.observed = true ∧
      (e.withCache cache).reportLines.scene.trace = e.scene.trace := fun cache =>
    ⟨(reportLines_trace _).1.trans hobserved, (reportLines_trace _).2⟩
  cases h with
  | @run path owner cache entry found =>
    obtain ⟨hwatched, hsilent⟩ := hread cache
    rcases moves_starts (e := e) hwatched (reportLines_chain _) (reportLines_options _) hsilent
        entry.script owner with
      ⟨hroom, hmoves⟩ | ⟨hfull, hmoves⟩
    · exact Or.inl ⟨entry.script, .run found hroom, hmoves⟩
    · refine Or.inr ⟨?_, hmoves⟩
      rintro script ⟨found', room⟩
      exact hfull room
  | @runNothing path owner cache f missing inside =>
    obtain ⟨hwatched, hsilent⟩ := hread cache
    refine Or.inr ⟨?_, moves_of_eq hwatched (reportLines_chain _) hsilent⟩
    rintro script ⟨found, room⟩
    cases (Prod.mk.inj (missing.symm.trans found)).2
  | @runNothingIdle path owner cache f missing outside =>
    obtain ⟨hwatched, hsilent⟩ := hread cache
    refine Or.inr ⟨?_, .within hwatched e.chain.scripts_finish hsilent⟩
    rintro script ⟨found, room⟩
    cases (Prod.mk.inj (missing.symm.trans found)).2
  | @runContent file source owner parsed parses =>
    have hlines : (parsed.faults.foldl report e).observed = true ∧
        (parsed.faults.foldl report e).chain = e.chain ∧
        (parsed.faults.foldl report e).options = e.options ∧
        (parsed.faults.foldl report e).scene.trace = e.scene.trace := by
      rw [foldl_report]
      exact ⟨hobserved, rfl, rfl, rfl⟩
    obtain ⟨hwatched, hchain, hoptions, hsilent⟩ := hlines
    rcases moves_starts hwatched hchain hoptions hsilent parsed.script owner with
      ⟨hroom, hmoves⟩ | ⟨hfull, hmoves⟩
    · subst parses
      exact Or.inl ⟨_, .runContent hroom, hmoves⟩
    · refine Or.inr ⟨?_, hmoves⟩
      rintro script ⟨found', room⟩
      exact hfull ‹_›
  | updateEnded ready waits polled => exact Or.inr ⟨nofun, moves_goesOn hobserved rfl rfl⟩
  | closeTalk waits => exact Or.inr ⟨nofun, moves_goesOn hobserved rfl rfl⟩
  | closeDialog waits => exact Or.inr ⟨nofun, moves_goesOn hobserved rfl rfl⟩
  | select waits => exact Or.inr ⟨nofun, moves_goesOn hobserved rfl rfl⟩
  | stop => exact Or.inr ⟨nofun, .within hobserved List.nil_suffix rfl⟩
  | observe => exact Or.inr ⟨nofun, .within hkept List.suffix_rfl rfl⟩
  | _ => exact Or.inr ⟨nofun, .within hobserved List.suffix_rfl rfl⟩

theorem launches_arrived (p : Position) :
    (e.arrived p).Launches call script ↔ e.Launches call script := by
  have hcandidates : ∀ target, (e.arrived p).candidates target = e.candidates target := by
    intro target
    simp only [candidates, arrived, observe_toRunner, observe_world]
  constructor
  · rintro ⟨asks, room, found⟩
    rw [hcandidates] at found
    rw [arrived, observe_toRunner] at room
    rw [arrived, observe_cache] at found
    exact .mk (asks_observe.mp asks) room found
  · rintro ⟨asks, room, found⟩
    rw [← hcandidates] at found
    refine .mk (asks_observe.mpr asks) ?_ (by rwa [arrived, observe_cache])
    rwa [arrived, observe_toRunner]

omit [World ω] in
/-- An observed engine traces where it arrives. -/
theorem arrived_eq (hobserved : e.observed = true) (p : Position) :
    e.arrived p = { e with scene := { e.scene with
      trace := e.scene.trace.push (.reached p.script.file p.line) } } :=
  if_pos hobserved

end Engine

open Engine

variable {s t : Phase ω} {asked : Option (Request ω)} {p : Position} {c : Call} {script : Script}

omit [World ω] in
theorem called?_of_next (hp : s.chain.position = some p) (hnext : s.next? = some (.call c)) :
    s.called? = some (.runs p c) := by
  simp only [Phase.called?, hp, hnext, Option.bind_some]

omit [World ω] in
theorem called?_of_silent (hsilent : ∀ c, s.next? ≠ some (.call c)) : s.called? = none := by
  unfold Phase.called?
  cases s.chain.position with
  | none => rfl
  | some p =>
    rw [Option.bind_some]
    split
    · next c hnext => exact absurd hnext (hsilent c)
    · rfl

omit [World ω] in
theorem entered?_of_moves {e : Engine ω} {entered : Option Script} (hchain : e.chain = s.chain)
    (h : e.Moves t.engine entered) : s.entered? t = entered := by
  cases h with
  | within observed below silent =>
    rw [hchain] at below
    exact if_neg (Nat.not_lt.mpr below.length_le)
  | enters observed stands above told =>
    have habove : t.chain.scripts.length = s.chain.scripts.length + 1 := by
      rw [← hchain]
      exact (congrArg List.length above).trans List.length_cons
    have hscript := (Chain.position_eq_some.mp stands).1
    change t.chain.script? = _ at hscript
    rw [Phase.entered?, if_pos (by omega), hscript]

theorem Phase.Starts.unique {script' : Script} (h : s.Starts asked script)
    (h' : s.Starts asked script') : script = script' := by
  cases h with
  | request rests admits =>
    cases h' with
    | request rests' admits' =>
      subst rests
      cases rests'
      exact admits.unique admits'
  | call next launches =>
    cases h' with
    | call next' launches' =>
      obtain ⟨rfl⟩ := next.symm.trans next'
      exact launches.unique launches'

/-- What a turn shows of itself: the call that is run, if one is, and then the script that is
entered, on top of those that are open. -/
structure Shown (asked : Option (Request ω)) (s t : Phase ω) : Prop where
  observed : t.engine.observed = true
  told : t.engine.scene.trace.toList = s.engine.scene.trace.toList ++
    (s.called?.toList ++ (s.entered? t).toList.map Sighting.enters).map Sighting.event
  entered : ∀ script, s.entered? t = some script ↔ s.Starts asked script
  above : ∀ script, s.entered? t = some script → t.chain.scripts = script :: s.chain.scripts
  below : s.entered? t = none → t.chain.scripts <:+ s.chain.scripts

theorem shown_of_moves {e : Engine ω} (hchain : e.chain = s.chain)
    (htold : e.scene.trace.toList =
      s.engine.scene.trace.toList ++ s.called?.toList.map Sighting.event)
    (h : (∃ script, s.Starts asked script ∧ e.Moves t.engine (some script)) ∨
      (∀ script, ¬s.Starts asked script) ∧ e.Moves t.engine none) : Shown asked s t := by
  rcases h with ⟨script, hstarts, hmoves⟩ | ⟨hnone, hmoves⟩
  · have hentered := entered?_of_moves hchain hmoves
    cases hmoves with
    | enters observed stands above told =>
      refine ⟨observed, ?_, fun other => ?_, fun other hother => ?_, fun hnothing => ?_⟩
      · rw [told, Array.toList_push, htold, hentered]
        simp [Sighting.event]
      · rw [hentered]
        exact ⟨fun hother => Option.some.inj hother ▸ hstarts,
          fun hother => congrArg some (hstarts.unique hother)⟩
      · obtain rfl := Option.some.inj (hentered.symm.trans hother)
        rw [← hchain]
        exact above
      · cases hentered.symm.trans hnothing
  · have hentered := entered?_of_moves hchain hmoves
    cases hmoves with
    | within observed below silent =>
      refine ⟨observed, ?_, fun other => ?_, fun other hother => ?_, fun _ => hchain ▸ below⟩
      · rw [silent, htold, hentered]
        simp
      · rw [hentered]
        exact ⟨nofun, fun hother => absurd hother (hnone other)⟩
      · cases hentered.symm.trans hother

theorem shown_of_silent (hsilent : ∀ c, s.next? ≠ some (.call c))
    (h : s.engine.Moves t.engine none) : Shown none s t := by
  refine shown_of_moves rfl ?_ (Or.inr ⟨?_, h⟩)
  · rw [called?_of_silent hsilent]
    exact (List.append_nil _).symm
  · rintro script ⟨⟩
    next next launches => exact hsilent _ next

theorem shown_of_step {left : Nat} {e e' : Engine ω} (hobserved : e.observed = true)
    (free : e.isHeld = false) (stands : e.chain.position = some p)
    (next : p.instruction? = some (.call c)) (ran : e.step p (.call c) = .ok e') :
    Shown none (.running (left + 1) e) (.running left e') := by
  have hnext := next?_of_inside left free stands next
  have hstands : (Phase.running (left + 1) e).chain.position = some p := stands
  have hchain : (e.arrived p).chain = e.chain := by rw [arrived, observe_toRunner]
  have hobserved' : (e.arrived p).observed = true := by rwa [arrived, observe_toRunner]
  refine shown_of_moves hchain ?_ ?_
  · rw [called?_of_next hstands hnext, arrived_eq hobserved]
    exact Array.toList_push ..
  · have hinside : (e.arrived p).chain.script?.isSome = true := by
      rw [hchain, (Chain.position_eq_some.mp stands).1]
      rfl
    rcases moves_of_dispatch hobserved' hinside ran with ⟨script, hlaunches, hmoves⟩ | ⟨hnone, hmoves⟩
    · exact Or.inl ⟨script, .call hnext ((launches_arrived p).mp hlaunches), hmoves⟩
    · refine Or.inr ⟨?_, hmoves⟩
      rintro script ⟨⟩
      next c' next' launches =>
      obtain ⟨rfl⟩ := hnext.symm.trans next'
      exact hnone script ((launches_arrived p).mpr launches)

theorem Round.shown (hobserved : s.engine.observed = true) (h : Round s t) : Shown none s t := by
  cases h with
  | @halt left e held =>
    exact shown_of_silent (by simp [next?_of_held left held]) (moves_of_eq hobserved rfl rfl)
  | @leave left e c free runs ended leaves =>
    exact shown_of_silent (by simp [next?_of_ended left ended])
      (.within hobserved (Chain.scripts_leave leaves) rfl)
  | @finish left e free ended alone =>
    exact shown_of_silent (by simp [next?_of_ended left ended])
      (.within hobserved e.chain.scripts_finish rfl)
  | @yield e p i free stands next =>
    have hwatched : (e.yield p i).observed = true := by
      unfold Engine.yield
      split
      · exact hobserved
      · exact hobserved
    exact shown_of_silent nofun
      (moves_of_eq hwatched (yield_chain ..) (congrArg Scene.trace (yield_scene ..)))
  | @step left e e' p i free stands next ran =>
    cases i with
    | marker name literal line =>
      obtain ⟨hcounts, rfl⟩ := step_marker_eq_ok.mp ran
      refine shown_of_silent ?_ (.within hobserved List.suffix_rfl rfl)
      simp [next?_of_inside left free stands next]
    | call c => exact shown_of_step hobserved free stands next ran

theorem Turn.shown (hobserved : s.engine.observed = true)
    (hkept : ∀ r, asked = some r → r.keepsWatch = true) (h : Turn asked s t) :
    Shown asked s t := by
  cases h with
  | round round => exact round.shown hobserved
  | @request e r o opens =>
    refine shown_of_moves rfl ?_ ?_
    · have hsilent : (Phase.resting e).called? = none := called?_of_silent nofun
      rw [hsilent]
      exact (List.append_nil _).symm
    · rcases moves_of_opened hobserved (hkept r rfl) (opened_of_opening opens) with
        ⟨script, hadmits, hmoves⟩ | ⟨hnone, hmoves⟩
      · exact Or.inl ⟨script, .request rfl hadmits, hmoves⟩
      · refine Or.inr ⟨?_, hmoves⟩
        rintro script ⟨⟩
        next e' rests admits =>
        cases rests
        exact hnone script admits

/-- A new engine that is observed from the start. -/
def Engine.watched (table : CommandTable) (options : Options) (scene : Scene ω) : Engine ω :=
  { fresh table options scene with observed := true }

/-- A run that is observed from its start, with what shows of it, and for every open script,
innermost first, the place at which it was entered. -/
inductive Watched (table : CommandTable) (options : Options) (scene : Scene ω) :
    List Sighting → List Nat → Phase ω → Prop where
  | begin : Watched table options scene [] [] (.resting (.watched table options scene))
  | enters {log : List Sighting} {opened : List Nat} {asked : Option (Request ω)} {s t : Phase ω}
      {script : Script} (before : Watched table options scene log opened s)
      (kept : ∀ r, asked = some r → r.keepsWatch = true) (turn : Turn asked s t)
      (entered : s.entered? t = some script) :
      Watched table options scene (log ++ s.called?.toList ++ [.enters script])
        ((log ++ s.called?.toList).length :: opened) t
  | within {log : List Sighting} {opened : List Nat} {asked : Option (Request ω)} {s t : Phase ω}
      (before : Watched table options scene log opened s)
      (kept : ∀ r, asked = some r → r.keepsWatch = true) (turn : Turn asked s t)
      (entered : s.entered? t = none) :
      Watched table options scene (log ++ s.called?.toList)
        (opened.drop (opened.length - t.chain.scripts.length)) t

/-- The trace is what shows of the run. Every open script was entered at a place of its own, and the
outer ones before the inner ones. -/
structure Traced (scene : Scene ω) (log : List Sighting) (opened : List Nat) (s : Phase ω) :
    Prop where
  observed : s.engine.observed = true
  told : s.engine.scene.trace.toList = scene.trace.toList ++ log.map Sighting.event
  entries : opened.map (log[·]?) = s.chain.scripts.map fun script => some (.enters script)
  order : opened.Pairwise (· > ·)

section Watching

variable {scene : Scene ω} {log : List Sighting} {opened : List Nat} {table : CommandTable}
  {options : Options}

omit [World ω] in
theorem Traced.lt_length (h : Traced scene log opened s) {i : Nat} (hi : i ∈ opened) :
    i < log.length := by
  have hmem : log[i]? ∈ opened.map (log[·]?) := List.mem_map_of_mem hi
  rw [h.entries] at hmem
  obtain ⟨script, -, hscript⟩ := List.mem_map.mp hmem
  exact (List.getElem?_eq_some_iff.mp hscript.symm).1

omit [World ω] in
/-- What is noted later does not move what was noted before. -/
theorem Traced.entries_append (h : Traced scene log opened s) (more : List Sighting) :
    opened.map ((log ++ more)[·]?) = s.chain.scripts.map fun script => some (.enters script) := by
  rw [← h.entries]
  exact List.map_congr_left fun i hi => List.getElem?_append_left (h.lt_length hi)

omit [World ω] in
theorem Traced.length (h : Traced scene log opened s) :
    opened.length = s.chain.scripts.length := by
  simpa using congrArg List.length h.entries

theorem Traced.enters (h : Traced scene log opened s)
    (hkept : ∀ r, asked = some r → r.keepsWatch = true) (hturn : Turn asked s t)
    (hentered : s.entered? t = some script) :
    Traced scene (log ++ s.called?.toList ++ [.enters script])
      ((log ++ s.called?.toList).length :: opened) t := by
  have hshown := hturn.shown h.observed hkept
  refine ⟨hshown.observed, ?_, ?_, ?_⟩
  · rw [hshown.told, h.told, hentered]
    simp
  · have hhere : (log ++ s.called?.toList ++ [Sighting.enters script])[(log ++
        s.called?.toList).length]? = some (.enters script) := List.getElem?_concat_length ..
    rw [hshown.above script hentered, List.map_cons, List.map_cons, hhere, List.append_assoc,
      h.entries_append]
  · refine List.pairwise_cons.mpr ⟨fun i hi => ?_, h.order⟩
    have hlt := h.lt_length hi
    simp only [List.length_append, gt_iff_lt]
    omega

theorem Traced.within (h : Traced scene log opened s)
    (hkept : ∀ r, asked = some r → r.keepsWatch = true) (hturn : Turn asked s t)
    (hentered : s.entered? t = none) :
    Traced scene (log ++ s.called?.toList)
      (opened.drop (opened.length - t.chain.scripts.length)) t := by
  have hshown := hturn.shown h.observed hkept
  refine ⟨hshown.observed, ?_, ?_, h.order.drop⟩
  · rw [hshown.told, h.told, hentered]
    simp
  · rw [List.map_drop, h.entries_append, ← List.map_drop, h.length,
      ← List.suffix_iff_eq_drop.mp (hshown.below hentered)]

theorem Watched.traced (h : Watched table options scene log opened s) :
    Traced scene log opened s := by
  induction h with
  | begin => exact ⟨rfl, (List.append_nil _).symm, rfl, .nil⟩
  | enters before kept turn entered ih => exact ih.enters kept turn entered
  | within before kept turn entered ih => exact ih.within kept turn entered

omit [World ω] in
theorem Phase.instruction?_of_next? {i : Instruction} (h : s.next? = some i) :
    s.chain.instruction? = some i := by
  cases s with
  | resting e => cases h
  | running left e =>
    cases left with
    | zero => cases h
    | succ left =>
      simp only [next?] at h
      split at h
      · cases h
      · exact h

/-- A call that is run stands in the innermost script, which was entered before. -/
theorem Watched.runs (h : Watched table options scene log opened s)
    (hcalled : s.called? = some (.runs p c)) :
    p.instruction? = some (.call c) ∧ ∃ i ∈ opened.head?, log[i]? = some (.enters p.script) := by
  obtain ⟨q, hq, hcall⟩ := Option.bind_eq_some_iff.mp hcalled
  split at hcall
  · next c' hnext =>
    obtain ⟨rfl, rfl⟩ : q = p ∧ c' = c := by simpa using hcall
    have hinstruction := Phase.instruction?_of_next? hnext
    rw [Chain.instruction?, hq] at hinstruction
    refine ⟨hinstruction, ?_⟩
    have hentries := h.traced.entries
    have hscript : s.chain.script? = some q.script := (Chain.position_eq_some.mp hq).1
    simp only [Chain.scripts, hscript, Option.toList_some, List.cons_append, List.map_cons,
      List.nil_append] at hentries
    cases opened with
    | nil => cases hentries
    | cons i outer => exact ⟨i, rfl, (List.cons.inj hentries).1⟩
  · cases hcall

omit [World ω] in
/-- An event of a start lists as many lines as it tells. -/
theorem total_of_mem {file : String} {total : Nat} {lines : List String}
    (h : .started file total lines ∈ log.map Sighting.event) : lines.length = total := by
  obtain ⟨sighting, -, hevent⟩ := List.mem_map.mp h
  cases sighting with
  | enters script =>
    obtain ⟨-, rfl, rfl⟩ := Event.started.inj hevent
    exact List.length_map ..
  | runs p c => cases hevent

theorem watched_iff :
    (∃ log opened, Watched table options scene log opened s) ↔
      ReachesBy (fun r => r.keepsWatch = true) (.resting (.watched table options scene)) s := by
  constructor
  · rintro ⟨log, opened, h⟩
    induction h with
    | begin => exact .refl
    | enters before kept turn entered ih => exact ih.tail ⟨_, kept, turn⟩
    | within before kept turn entered ih => exact ih.tail ⟨_, kept, turn⟩
  · intro h
    induction h with
    | refl => exact ⟨[], [], .begin⟩
    | @tail s t _ hturn ih =>
      obtain ⟨log, opened, hwatched⟩ := ih
      obtain ⟨asked, hkept, hturn⟩ := hturn
      cases hentered : s.entered? t with
      | some script => exact ⟨_, _, hwatched.enters hkept hturn hentered⟩
      | none => exact ⟨_, _, hwatched.within hkept hturn hentered⟩

end Watching

/-- The trace of a run that is observed from its start is what shows of it: every call at its place
when it is about to be run, before anything it does, and every script that a turn enters, with its
lines and their number, which are those that a host or a call asks for, as far as they are found and
there is room. A call is run in a script that was entered before, at a place of its own. Requests are answered alike with and without
observation, and leave the engine alike. -/
theorem trace_tells_what_runs (table : CommandTable) (options : Options) (scene : Scene ω) :
    (∀ s, (∃ log opened, Watched table options scene log opened s) ↔
      ReachesBy (fun r => r.keepsWatch = true) (.resting (.watched table options scene)) s) ∧
    (∀ log opened s, Watched table options scene log opened s →
      Traced scene log opened s ∧
      (∀ file total lines, .started file total lines ∈ log.map Sighting.event →
        lines.length = total) ∧
      (∀ p c, s.called? = some (.runs p c) →
        p.instruction? = some (.call c) ∧ ∃ i ∈ opened.head?, log[i]? = some (.enters p.script)) ∧
      ∀ asked t script, (∀ r, asked = some r → r.keepsWatch = true) → Turn asked s t →
        (s.entered? t = some script ↔ s.Starts asked script)) ∧
    (∀ (e : Engine ω) p c, e.observed = true → e.step p (.call c) =
      dispatch { e with scene := { e.scene with
        trace := e.scene.trace.push (.reached p.script.file p.line) } } p.script.file c) ∧
    ∀ rs (e e' : Engine ω), e'.unobserved = e.unobserved →
      (answers rs e').map (·.map Answer.unobserved) =
        (answers rs e).map (·.map Answer.unobserved) := by
  refine ⟨fun s => watched_iff, fun log opened s hwatched => ?_, fun e p c hobserved => ?_,
    fun rs e e' => answers_unobserved rs⟩
  · refine ⟨hwatched.traced, fun _ _ _ => total_of_mem, fun p c => hwatched.runs, fun asked t script hkept hturn => ?_⟩
    exact (hturn.shown hwatched.traced.observed hkept).entered script
  · rw [← arrived_eq hobserved]
    rfl

namespace Rehearsal

def relay : String := "@here:\nRunScript(\"inner\");"

/-- A script that starts another one is traced first, with its own call before the start. -/
theorem relay_traced : ∃ (o : Opening Recording) (e : Engine Recording) (log : List Sighting)
    (opened : List Nat),
    (watched table {} scene).opening (.runContent "relay" relay none) = .ok o ∧
    (Phase.resting (watched table {} scene)).entered? o.phase =
      some (Script.parse "relay" relay).script ∧
    Watched table {} scene log opened (.resting e) ∧ opened.length = 2 ∧
    log.map Sighting.event = [.started "relay" 2 ["@here:", "RunScript(\"inner\");"],
      .reached "relay" 1, .started "inner" 1 ["Sleep(5);"], .reached "inner" 0] ∧
    (∀ p c, e.step p (.call c) = dispatch { e with scene := { e.scene with
      trace := e.scene.trace.push (.reached p.script.file p.line) } } p.script.file c) ∧
    (answers [.runContent "relay" relay none] (watched table {} scene)).map
        (·.map Answer.unobserved) =
      (answers [.runContent "relay" relay none] (fresh table {} scene)).map
        (·.map Answer.unobserved) := by
  obtain ⟨e, hserve, hstate⟩ := exists_ok
    (r := serve [.runContent "relay" relay none] (watched table {} scene))
    (f := fun e => (e.chain.scripts.length, e.scene.trace.toList))
    (b := (2, [.started "relay" 2 ["@here:", "RunScript(\"inner\");"],
      .reached "relay" 1, .started "inner" 1 ["Sleep(5);"], .reached "inner" 0]))
    (by decide +kernel)
  obtain ⟨o, hopen, -⟩ := exists_ok
    (r := (watched table {} scene).opening (.runContent "relay" relay none))
    (f := fun _ => ()) (b := ()) rfl
  obtain ⟨hlength, htrace⟩ := Prod.mk.inj hstate
  obtain ⟨hwatches, htells, harrives, hanswers⟩ := trace_tells_what_runs table {} scene
  obtain ⟨log, opened, hwatched⟩ :=
    (hwatches _).mpr (reachesBy_of_serve (by simp [Request.keepsWatch]) hserve)
  obtain ⟨htraced, -, -, -⟩ := htells log opened _ hwatched
  obtain ⟨-, -, -, hstarts⟩ := htells [] [] _ .begin
  have hname : ScriptPath.normalize "relay" = "relay" := by decide +kernel
  have hadmits : (watched table {} scene).Admits (.runContent "relay" relay none)
      (Script.parse (ScriptPath.normalize "relay") relay).script := .runContent (by decide)
  rw [hname] at hadmits
  refine ⟨o, e, log, opened, hopen, ?_, hwatched, htraced.length.trans hlength,
    htraced.told.symm.trans htrace, fun p c => harrives e p c htraced.observed,
    hanswers _ _ _ rfl⟩
  exact (hstarts _ _ _ (by simp [Request.keepsWatch]) (.request hopen)).mpr (.request rfl hadmits)

end Rehearsal

end Cutscene
