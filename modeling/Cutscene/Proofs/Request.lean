import Cutscene.Engine.Host
import Cutscene.Proofs.Result

/-! Requests of the host as data, and each of them in two parts: what it changes at once, and the
run that it may let follow. A run of requests ends where the first crash occurs. -/

namespace Cutscene

/-- What a host asks of an engine, or changes around it. -/
inductive Request (ω : Type) where
  | run (path : String) (owner : Option Owner)
  | runContent (file source : String) (owner : Option Owner)
  | execute
  | update (elapsed : Int)
  | closeDialog
  | select (index : Int32)
  | pause
  | resume
  | stop
  | takeDiagnostics
  | observe (observed : Bool)
  | setWorld (world : ω)
  /-- The cache cleared, on another loader, or filled by other chains: whoever read a script took
  the faults of its lines. -/
  | setCache (cache : Cache) (taken : cache.faults = [])

/-- Where a run stands: at rest, or with so many instructions left before it yields. -/
inductive Phase (ω : Type) where
  | resting (e : Engine ω)
  | running (left : Nat) (e : Engine ω)

namespace Phase

variable {ω : Type}

def engine : Phase ω → Engine ω
  | resting e => e
  | running _ e => e

def chain (s : Phase ω) : Chain := s.engine.chain

def begun (e : Engine ω) : Phase ω := running e.options.maxSteps e

@[simp] theorem chain_resting (e : Engine ω) : (resting e).chain = e.chain := rfl

@[simp] theorem chain_running (left : Nat) (e : Engine ω) : (running left e).chain = e.chain := rfl

@[simp] theorem chain_begun (e : Engine ω) : (begun e).chain = e.chain := rfl

end Phase

/-- What a request does at once, and the answer that it gets. -/
structure Opening (ω : Type) where
  phase : Phase ω
  result : Except Fault Unit

namespace Engine

variable {ω : Type} [World ω]

def answer (e : Engine ω) : Request ω → Except (Crash ω) (Answer ω)
  | .run path owner => e.runScript path owner
  | .runContent file source owner => e.runContent file source owner
  | .execute => succeed e.execute
  | .update elapsed => succeed (e.update elapsed)
  | .closeDialog => e.closeDialog
  | .select index => e.select index
  | .pause => succeed (.ok e.pause)
  | .resume => succeed (.ok e.resume)
  | .stop => succeed (.ok e.stop)
  | .takeDiagnostics => succeed (.ok e.takeDiagnostics.1)
  | .observe observed => succeed (.ok { e with observed })
  | .setWorld world => succeed (.ok (e.withWorld world))
  | .setCache cache _ => succeed (.ok (e.withCache cache))

def serve : List (Request ω) → Engine ω → Except (Crash ω) (Engine ω)
  | [], e => .ok e
  | r :: rs, e => do serve rs (← e.answer r).1

def fresh (table : CommandTable) (options : Options) (scene : Scene ω) : Engine ω :=
  .ofRunner (.ofOptions table options) scene

def rests (e : Engine ω) : Opening ω := ⟨.resting e, .ok ()⟩

def refuses (e : Engine ω) (f : Fault) : Opening ω := ⟨.resting e, .error f⟩

/-- A fault without a place, which the diagnostics keep as well. -/
def refusesAloud (e : Engine ω) (f : Fault) : Opening ω := (e.report f).refuses f

def goesOn (e : Engine ω) : Opening ω :=
  ⟨.begun (e.withChain { e.chain with wait := none }.advance), .ok ()⟩

def starts (e : Engine ω) (script : Script) (owner : Option Owner) : Opening ω :=
  if e.options.maxDepth < e.nextDepth then
    e.refusesAloud { cause := .depthExceeded e.options.maxDepth script.file }
  else
    let chain := { e.chain with owner := owner <|> e.chain.owner }
    ⟨.begun (e.withChain (chain.enter script)).announce, .ok ()⟩

/-- What a request does before anything is run for it. -/
def opening (e : Engine ω) : Request ω → Except (Crash ω) (Opening ω)
  | .run path owner =>
    let (cache, found) := e.scene.cache.loadFirst (e.candidates path)
    let e := (e.withCache cache).reportLines
    match found with
    | .ok entry => .ok (e.starts entry.script owner)
    | .error f =>
      .ok ((if e.chain.script?.isSome then e else e.withChain e.chain.finish).refusesAloud f)
  | .runContent file source owner =>
    let parsed := Script.parse (ScriptPath.normalize file) source
    .ok ((parsed.faults.foldl report e).starts parsed.script owner)
  | .execute => .ok ⟨.begun e, .ok ()⟩
  | .update elapsed =>
    if !e.chain.isRunning || e.chain.paused then .ok e.rests
    else match e.chain.wait with
      | none => .ok ⟨.begun e, .ok ()⟩
      | some wait => do
        let (wait, ended) ← wait.poll e.scene.world elapsed
        return if ended then (e.park wait).goesOn else (e.park wait).rests
  | .closeDialog =>
    match e.chain.wait with
    | some (.talk (line :: rest)) => do
      let e ← e.perform (.dialog line.text line.portrait)
      return (e.park (.talk rest)).rests
    | some (.talk []) => .ok e.goesOn
    | some .dialog => .ok e.goesOn
    | _ => .ok (e.refuses { cause := .noDialog })
  | .select index =>
    match e.chain.wait with
    | some (.selection result) => .ok (e.assign result index).goesOn
    | _ => .ok (e.refuses { cause := .noSelection })
  | .pause => .ok e.pause.rests
  | .resume => .ok e.resume.rests
  | .stop => .ok e.stop.rests
  | .takeDiagnostics => .ok e.takeDiagnostics.1.rests
  | .observe observed => .ok (rests { e with observed })
  | .setWorld world => .ok (e.withWorld world).rests
  | .setCache cache _ => .ok (e.withCache cache).rests

end Engine

/-- The engine that a run ends with. -/
def Phase.outcome {ω : Type} [World ω] : Phase ω → Except (Crash ω) (Engine ω)
  | resting e => .ok e
  | running left e => e.steps left

@[simp] theorem Phase.outcome_begun {ω : Type} [World ω] (e : Engine ω) :
    (Phase.begun e).outcome = e.execute := rfl

@[simp] theorem Phase.outcome_resting {ω : Type} [World ω] (e : Engine ω) :
    (Phase.resting e).outcome = .ok e := rfl

/-- The answer that an opening leads to. -/
def Opening.answer {ω : Type} [World ω] (o : Opening ω) : Except (Crash ω) (Engine.Answer ω) :=
  o.phase.outcome.map fun e => (e, o.result)

namespace Engine

variable {ω : Type} [World ω]

theorem answer_starts (e : Engine ω) (script : Script) (owner : Option Owner) :
    (e.starts script owner).answer = e.start script owner := by
  unfold start starts
  split
  · rfl
  · simp only [Opening.answer, Phase.outcome_begun, succeed]

theorem answer_rests (e : Engine ω) : e.rests.answer = succeed (.ok e) := rfl

theorem answer_begun (e : Engine ω) :
    Opening.answer ⟨.begun e, .ok ()⟩ = succeed e.execute := by
  simp only [Opening.answer, Phase.outcome_begun, succeed]

theorem answer_refusesAloud (e : Engine ω) (f : Fault) :
    (e.refusesAloud f).answer = (e.report f).refuse f := rfl

theorem answer_goesOn (e : Engine ω) : e.goesOn.answer = succeed e.goOn := by
  simp only [Opening.answer, goesOn, Phase.outcome_begun, succeed, goOn]

theorem answer_polled (e : Engine ω) (polled : Except (Crash ω) (Wait × Bool)) :
    succeed (do
      let (wait, ended) ← polled
      let e := e.park wait
      if ended then e.goOn else return e) =
    (do
      let (wait, ended) ← polled
      return if ended then (e.park wait).goesOn else (e.park wait).rests) >>= Opening.answer := by
  cases polled with
  | error crash => rfl
  | ok polled =>
    obtain ⟨wait, ended⟩ := polled
    cases ended with
    | true => exact (answer_goesOn _).symm
    | false => rfl

/-- A request is what it does at once and then the run that follows. -/
theorem answer_eq_opening (e : Engine ω) (r : Request ω) :
    e.answer r = e.opening r >>= Opening.answer := by
  cases r with
  | run path owner =>
    simp only [answer, opening, runScript]
    cases (e.scene.cache.loadFirst (e.candidates path)).2 with
    | ok entry => simp only [ok_bind, answer_starts]
    | error f => simp only [ok_bind, answer_refusesAloud, failStart]
  | runContent file source owner =>
    simp only [answer, opening, runContent, ok_bind, answer_starts]
  | execute => simp only [answer, opening, ok_bind, answer_begun]
  | update elapsed =>
    simp only [answer, opening, update]
    by_cases hidle : (!e.chain.isRunning || e.chain.paused) = true
    · simp only [hidle, if_true, ok_bind, answer_rests]
    · simp only [hidle]
      cases e.chain.wait with
      | none => simp only [ok_bind, answer_begun, Bool.false_eq_true, if_false]
      | some wait => exact answer_polled e (wait.poll e.scene.world elapsed)
  | closeDialog =>
    simp only [answer, opening, closeDialog]
    cases e.chain.wait with
    | none => rfl
    | some wait =>
      cases wait with
      | timer => rfl
      | selection => rfl
      | activity => rfl
      | dialog => simp only [ok_bind, answer_goesOn]
      | talk lines =>
        cases lines with
        | nil => simp only [ok_bind, answer_goesOn]
        | cons line rest =>
          cases hshow : e.perform (.dialog line.text line.portrait) with
          | error crash => simp only [hshow, error_bind]
          | ok e' =>
            simp only [hshow, ok_bind, pure, Except.pure, answer_rests, succeed, ok_map]
  | select index =>
    simp only [answer, opening, select]
    cases e.chain.wait with
    | none => rfl
    | some wait =>
      cases wait with
      | selection result => simp only [ok_bind, answer_goesOn]
      | _ => rfl
  | pause => rfl
  | resume => rfl
  | stop => rfl
  | takeDiagnostics => rfl
  | observe observed => rfl
  | setWorld world => rfl
  | setCache cache taken => rfl

end Engine

end Cutscene
