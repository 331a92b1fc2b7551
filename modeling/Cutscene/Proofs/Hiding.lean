import Cutscene.Proofs.Acts

/-! Parts of an engine that no action looks at. Where such a part is hidden, an action does what it
does otherwise, and what was hidden stays so. -/

namespace Cutscene.Engine

variable {ω : Type}

/-- Hides a part of an engine that actions neither look at nor change. -/
structure Hides (g : Engine ω → Engine ω) : Prop where
  table : ∀ e, (g e).table = e.table
  maxDepth : ∀ e, (g e).options.maxDepth = e.options.maxDepth
  chain : ∀ e, (g e).chain = e.chain
  random : ∀ e, (g e).random = e.random
  world : ∀ e, (g e).scene.world = e.scene.world
  cache : ∀ e, (g e).scene.cache = e.scene.cache
  withChain : ∀ e c, g (e.withChain c) = (g e).withChain c
  withWorld : ∀ e world, g (e.withWorld world) = (g e).withWorld world
  withCache : ∀ e cache, g (e.withCache cache) = (g e).withCache cache
  withRandom : ∀ e random, g { e with random } = { g e with random }

namespace Hides

variable [World ω] {g : Engine ω → Engine ω}

theorem view (h : Hides g) (e : Engine ω) (call : Call) : (g e).view call = e.view call := by
  simp only [Engine.view, h.chain, h.world]

theorem candidates (h : Hides g) (e : Engine ω) (target : String) :
    (g e).candidates target = e.candidates target := by
  simp only [Engine.candidates, h.chain, h.world]

omit [World ω] in
theorem park (h : Hides g) (e : Engine ω) (wait : Wait) : (g e).park wait = g (e.park wait) := by
  simp only [Engine.park, h.withChain, h.chain]

omit [World ω] in
theorem beginWait (h : Hides g) (e : Engine ω) (wait : Wait) :
    (g e).beginWait wait = (e.beginWait wait).map g := by
  unfold Engine.beginWait
  rw [h.chain, h.world, h.park]
  cases e.chain.wait <;> rfl

theorem assign (h : Hides g) (e : Engine ω) (name : String) (value : Int32) :
    (g e).assign name value = g (e.assign name value) := by
  simp only [Engine.assign, h.withWorld, h.world]

theorem draw (h : Hides g) (e : Engine ω) (name : String) (a b : Int32) :
    (g e).draw name a b = g (e.draw name a b) := by
  simp only [Engine.draw, h.random, ← h.withRandom, h.assign]

theorem perform (h : Hides g) (e : Engine ω) (effect : Effect) :
    (g e).perform effect = (e.perform effect).map g := by
  unfold Engine.perform
  rw [h.world]
  cases World.perform e.scene.world effect with
  | error crash => rfl
  | ok world => simp only [ok_map, h.withWorld]

theorem talk (h : Hides g) (e : Engine ω) (first last : Int32) :
    (g e).talk first last = (e.talk first last).map fun acted => (g acted.1, acted.2) := by
  unfold Engine.talk
  rw [h.world]
  cases World.talkLines? e.scene.world first last with
  | none => rfl
  | some lines =>
    cases lines with
    | nil => rfl
    | cons line rest =>
      simp only [h.perform]
      cases e.perform (.dialog line.text line.portrait) with
      | error crash => rfl
      | ok shown =>
        simp only [ok_map, ok_bind, h.beginWait]
        cases shown.beginWait (.talk rest) <;> rfl

omit [World ω] in
theorem pass (h : Hides g) (e : Engine ω) (label : String) :
    (g e).pass label = (e.pass label).map g := by
  unfold Engine.pass
  rw [h.chain, h.world]
  split
  · rw [ok_map, h.withChain]
  · rfl

omit [World ω] in
theorem jump (h : Hides g) (e : Engine ω) (label : String) :
    (g e).jump label = (e.jump label).map fun acted => (g acted.1, acted.2) := by
  unfold Engine.jump
  simp only [h.chain]
  cases e.chain.script? with
  | none => rfl
  | some script =>
    dsimp only
    cases script.markerOf? (Label.normalize label) with
    | none => rfl
    | some i =>
      simp only [h.pass]
      cases e.pass (Label.normalize label) with
      | error crash => rfl
      | ok passed => simp only [ok_map, ok_bind, h.chain, h.withChain, pure, Except.pure]

theorem call (h : Hides g) (e : Engine ω) (target : String) :
    (g e).call target = (g (e.call target).1, (e.call target).2) := by
  unfold Engine.call
  simp only [h.chain, h.maxDepth, h.cache, h.candidates]
  split
  · rfl
  · cases (e.scene.cache.loadFirst (e.candidates target)).2 with
    | error f => simp only [h.withCache]
    | ok entry => rw [withCache_toRunner, withCache_toRunner, h.chain, h.withChain, h.withCache]

/-- An action does the same to an engine of which a part is hidden. -/
theorem act (h : Hides g) (e : Engine ω) (action : Action) :
    (g e).act action = (e.act action).map fun acted => (g acted.1, acted.2) := by
  cases action with
  | perform effect wait =>
    cases wait with
    | none =>
      simp only [Engine.act, h.perform]
      cases e.perform effect <;> rfl
    | some wait =>
      simp only [Engine.act, h.perform]
      cases e.perform effect with
      | error crash => rfl
      | ok done =>
        simp only [ok_map, ok_bind, h.beginWait]
        cases done.beginWait wait <;> rfl
  | park wait =>
    simp only [Engine.act, h.beginWait]
    cases e.beginWait wait <;> rfl
  | assign name value => simp only [Engine.act, ok_map, h.assign]
  | draw name a b => simp only [Engine.act, ok_map, h.draw]
  | talk first last => exact h.talk e first last
  | jump label => exact h.jump e label
  | run target => simp only [Engine.act, ok_map, h.call]
  | goBack => simp only [Engine.act, ok_map, h.withChain, h.chain]
  | stall => simp only [Engine.act, ok_map, h.chain]
  | _ => rfl

omit [World ω] in
/-- Which instruction is next does not depend on it either. -/
theorem ready (h : Hides g) (e : Engine ω) : (g e).ready = (g e.ready.1, e.ready.2) := by
  have hheld : (g e).isHeld = e.isHeld := by simp only [isHeld, h.chain]
  unfold Engine.ready
  rw [hheld]
  split
  · rfl
  · simp only [h.withChain, h.chain, withChain_chain]

end Hides

end Cutscene.Engine
