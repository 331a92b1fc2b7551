import Cutscene.Command
import Cutscene.Random
import Cutscene.Scene

/-! An engine drives one chain through a scene. It keeps the faults that its chain met until
someone takes them. -/

namespace Cutscene

/-- One chain with all that belongs to it alone. -/
structure Runner where
  table : CommandTable
  options : Options := {}
  chain : Chain := {}
  random : Random
  diagnostics : Array Fault := #[]
  /-- Whether the chain leaves a trace. -/
  observed : Bool := false

/-- A chain that has not run yet; the random numbers start from the seed, or from 1. -/
def Runner.ofOptions (table : CommandTable) (options : Options) : Runner :=
  { table, options, random := options.seed.getD 1 }

structure Engine (ω : Type) extends Runner where
  scene : Scene ω

namespace Engine

variable {ω : Type}

def ofRunner (r : Runner) (scene : Scene ω) : Engine ω := { r with scene }

def withChain (e : Engine ω) (chain : Chain) : Engine ω := { e with chain }

def withWorld (e : Engine ω) (world : ω) : Engine ω := { e with scene := { e.scene with world } }

def withCache (e : Engine ω) (cache : Cache) : Engine ω :=
  { e with scene := { e.scene with cache } }

def report (e : Engine ω) (f : Fault) : Engine ω :=
  { e with diagnostics := e.diagnostics.push f }

/-- Takes over the faults of lines in a script that was just read. -/
def reportLines (e : Engine ω) : Engine ω :=
  let (cache, faults) := e.scene.cache.takeFaults
  faults.foldl report (e.withCache cache)

def takeDiagnostics (e : Engine ω) : Engine ω × List Fault :=
  ({ e with diagnostics := #[] }, e.diagnostics.toList)

def hasPending (e : Engine ω) (code : String) : Bool := e.diagnostics.any (·.code = code)

def observe (e : Engine ω) (event : Event) : Engine ω :=
  if e.observed then { e with scene := { e.scene with trace := e.scene.trace.push event } } else e

/-- Traces the start of the current script. -/
def announce (e : Engine ω) : Engine ω :=
  match e.chain.script? with
  | some s => e.observe (.started s.file s.length s.literals)
  | none => e

/-- Drops the chain, with its wait and its counts. -/
def stop (e : Engine ω) : Engine ω := e.withChain {}

def pause (e : Engine ω) : Engine ω :=
  if e.chain.isRunning then e.withChain { e.chain with paused := true } else e

/-- The chain goes on with the next frame. -/
def resume (e : Engine ω) : Engine ω := e.withChain { e.chain with paused := false }

section Fields

variable (e : Engine ω) (chain : Chain) (world : ω) (cache : Cache) (f : Fault) (event : Event)

@[simp] theorem withChain_self : e.withChain e.chain = e := rfl

@[simp] theorem withChain_chain : (e.withChain chain).chain = chain := rfl

@[simp] theorem withChain_table : (e.withChain chain).table = e.table := rfl

@[simp] theorem withChain_options : (e.withChain chain).options = e.options := rfl

@[simp] theorem withChain_scene : (e.withChain chain).scene = e.scene := rfl

@[simp] theorem withChain_withChain (c d : Chain) :
    (e.withChain c).withChain d = e.withChain d := rfl

@[simp] theorem withWorld_toRunner : (e.withWorld world).toRunner = e.toRunner := rfl

@[simp] theorem withWorld_world : (e.withWorld world).scene.world = world := rfl

@[simp] theorem withWorld_cache : (e.withWorld world).scene.cache = e.scene.cache := rfl

@[simp] theorem withCache_toRunner : (e.withCache cache).toRunner = e.toRunner := rfl

@[simp] theorem withCache_world : (e.withCache cache).scene.world = e.scene.world := rfl

@[simp] theorem withCache_cache : (e.withCache cache).scene.cache = cache := rfl

@[simp] theorem report_chain : (e.report f).chain = e.chain := rfl

@[simp] theorem report_table : (e.report f).table = e.table := rfl

@[simp] theorem report_options : (e.report f).options = e.options := rfl

@[simp] theorem report_scene : (e.report f).scene = e.scene := rfl

/-- Reports only add to the diagnostics, in order. -/
theorem foldl_report (faults : List Fault) :
    faults.foldl report e = { e with diagnostics := e.diagnostics ++ faults.toArray } := by
  induction faults generalizing e with
  | nil => simp
  | cons f faults ih =>
    rw [List.foldl_cons, ih]
    simp [report]

theorem reportLines_eq : e.reportLines =
    { e with
      diagnostics := e.diagnostics ++ e.scene.cache.faults.toArray
      scene := { e.scene with cache := { e.scene.cache with faults := [] } } } := by
  simp only [reportLines, Cache.takeFaults, foldl_report]
  rfl

@[simp] theorem reportLines_chain : e.reportLines.chain = e.chain := by rw [reportLines_eq]

@[simp] theorem reportLines_table : e.reportLines.table = e.table := by rw [reportLines_eq]

@[simp] theorem reportLines_options : e.reportLines.options = e.options := by rw [reportLines_eq]

@[simp] theorem reportLines_world : e.reportLines.scene.world = e.scene.world := by
  rw [reportLines_eq]

@[simp] theorem reportLines_faults : e.reportLines.scene.cache.faults = [] := by
  rw [reportLines_eq]

theorem reportLines_of_taken (h : e.scene.cache.faults = []) : e.reportLines = e := by
  obtain ⟨runner, world, ⟨read, scripts, faults, nextSerial, reads⟩, trace⟩ := e
  simp_all [reportLines_eq]

theorem observe_eq : ∃ trace, e.observe event = { e with scene := { e.scene with trace } } := by
  by_cases h : e.observed = true
  · exact ⟨e.scene.trace.push event, by simp [observe, h]⟩
  · exact ⟨e.scene.trace, by simp [observe, h]⟩

theorem announce_eq : ∃ trace, e.announce = { e with scene := { e.scene with trace } } := by
  unfold announce
  split
  · exact observe_eq e _
  · exact ⟨e.scene.trace, rfl⟩

@[simp] theorem observe_toRunner : (e.observe event).toRunner = e.toRunner := by
  obtain ⟨trace, h⟩ := observe_eq e event
  rw [h]

@[simp] theorem observe_world : (e.observe event).scene.world = e.scene.world := by
  obtain ⟨trace, h⟩ := observe_eq e event
  rw [h]

@[simp] theorem observe_cache : (e.observe event).scene.cache = e.scene.cache := by
  obtain ⟨trace, h⟩ := observe_eq e event
  rw [h]

@[simp] theorem announce_toRunner : e.announce.toRunner = e.toRunner := by
  obtain ⟨trace, h⟩ := announce_eq e
  rw [h]

@[simp] theorem announce_world : e.announce.scene.world = e.scene.world := by
  obtain ⟨trace, h⟩ := announce_eq e
  rw [h]

@[simp] theorem announce_cache : e.announce.scene.cache = e.scene.cache := by
  obtain ⟨trace, h⟩ := announce_eq e
  rw [h]

end Fields

end Engine

end Cutscene
