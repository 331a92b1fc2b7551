import Cutscene.Proofs.Acts

/-! What a routine does while it is run: the variables it sets, the effects it asks the world for,
and the waits it begins, in order. A routine that follows a plan reads before it does anything, and
then asks the world for one thing at most and begins one wait at most. -/

namespace Cutscene

/-- A wait that is begun, and what is pending then. -/
structure Beginning where
  pending : Option Wait
  wait : Wait
  deriving DecidableEq, Repr

inductive Deed where
  | variable (name : String) (value : Int32)
  | effect (effect : Effect)
  | wait (beginning : Beginning)
  deriving DecidableEq, Repr

namespace Deed

/-- Whether the world is asked for something. -/
def asksWorld : Deed → Bool
  | wait _ => false
  | _ => true

def beginning? : Deed → Option Beginning
  | wait beginning => some beginning
  | _ => none

end Deed

variable {ω : Type} [World ω]

/-- What a deed makes of the world. -/
def World.undergo (world : ω) : Deed → Except (Crash ω) ω
  | .variable name value => .ok (World.setVariable world name value)
  | .effect effect => World.perform world effect
  | .wait _ => .ok world

namespace Routine

variable {α : Type}

/-- The deeds of a routine when it is run for a call, up to its end or its breakdown. -/
def deeds (call : Call) : Routine α → Engine ω → List Deed
  | .done _, _ => []
  | .fail _, _ => []
  | .breakDown _, _ => []
  | .look next, e => (next (e.view call)).deeds call e
  | .chain next, e => (next e.chain).deeds call e
  | .options next, e => (next e.options).deeds call e
  | .setChain c next, e => next.deeds call (e.withChain c)
  | .beginWait wait next, e => .wait ⟨e.chain.wait, wait⟩ :: match e.beginWait wait with
    | .ok e => next.deeds call e
    | .error _ => []
  | .setVariable name value next, e => .variable name value :: next.deeds call (e.assign name value)
  | .perform effect next, e => .effect effect :: match e.perform effect with
    | .ok e => next.deeds call e
    | .error _ => []
  | .talkLines first last next, e => match World.talkLines? e.scene.world first last with
    | none => []
    | some lines => (next lines).deeds call e
  | .random a b next, e =>
    let (value, state) := e.random.between a b
    (next value).deeds call { e with random := state }
  | .load paths next, e =>
    let (cache, found) := e.scene.cache.loadFirst paths
    (next (found.map Cached.script)).deeds call (e.withCache cache)

/-- The waits among the deeds. -/
def beginnings (call : Call) (r : Routine α) (e : Engine ω) : List Beginning :=
  (r.deeds call e).filterMap Deed.beginning?

variable {call : Call} {e ran : Engine ω} {outcome : Except Fault α}

/-- The world after a run is what the deeds of the run make of the world before it. -/
theorem world_run {r : Routine α} (h : r.run call e = .ok (ran, outcome)) :
    (r.deeds call e).foldlM World.undergo e.scene.world = .ok ran.scene.world := by
  induction r generalizing e with
  | done a =>
    obtain ⟨rfl, -⟩ := Prod.mk.inj (Except.ok.inj h)
    rfl
  | fail f =>
    obtain ⟨rfl, -⟩ := Prod.mk.inj (Except.ok.inj h)
    rfl
  | breakDown b => cases h
  | look next ih => exact ih _ h
  | chain next ih => exact ih _ h
  | options next ih => exact ih _ h
  | setChain c next ih => exact ih h
  | beginWait wait next ih =>
    obtain ⟨e', hbegun, h⟩ := bind_eq_ok.mp h
    simp only [deeds, hbegun, List.foldlM_cons, World.undergo, ok_bind]
    have hworld : e'.scene.world = e.scene.world := by
      unfold Engine.beginWait at hbegun
      split at hbegun
      · exact Except.ok.inj hbegun ▸ rfl
      · cases hbegun
    exact hworld ▸ ih h
  | setVariable name value next ih =>
    simp only [deeds, List.foldlM_cons, World.undergo, ok_bind]
    exact ih h
  | perform effect next ih =>
    obtain ⟨e', hperform, h⟩ := bind_eq_ok.mp h
    obtain ⟨world, hworld, rfl⟩ := Engine.perform_eq_ok.mp hperform
    simp only [deeds, hperform, List.foldlM_cons, World.undergo, hworld, ok_bind]
    exact ih h
  | talkLines first last next ih =>
    simp only [run] at h
    simp only [deeds]
    cases hlines : World.talkLines? e.scene.world first last with
    | none =>
      rw [hlines] at h
      cases h
    | some lines =>
      rw [hlines] at h
      exact ih _ h
  | random a b next ih => exact ih _ h
  | load paths next ih => exact ih _ h

theorem deeds_read {β : Type} (f : View → Except Fault α) (next : α → Routine β) :
    (read f >>= next).deeds call e = match f (e.view call) with
      | .error _ => []
      | .ok a => (next a).deeds call e := by
  have hlook : (read f >>= next).deeds call e = ((read f).bind next).deeds call e := rfl
  rw [hlook]
  simp only [read, bind, deeds]
  cases f (e.view call) <;> rfl

/-- All that a routine does, it does for the action that its plan comes to. -/
theorem Follows.deeds_eq {r : Routine Flow} {plan : Plan} (h : r.Follows plan) :
    r.deeds call e = match plan (e.view call) with
      | .error _ => []
      | .ok action => action.routine.deeds call e := by
  induction h with
  | act action => rfl
  | fail f => rfl
  | @read α f next plan rest ih =>
    rw [deeds_read]
    cases hf : f (e.view call) with
    | error fault => simp only [hf, error_bind]
    | ok a => simpa only [hf, ok_bind] using ih a

@[simp] theorem deeds_suspend (wait : Wait) :
    (suspend wait).deeds call e = [.wait ⟨e.chain.wait, wait⟩] := by
  simp only [suspend, deeds]
  cases e.beginWait wait <;> rfl

@[simp] theorem deeds_jumpTo (label : String) : (jumpTo label).deeds call e = [] := by
  simp only [jumpTo, deeds]
  cases e.chain.script? with
  | none => rfl
  | some script =>
    dsimp only
    cases script.markerOf? (Label.normalize label) with
    | none => rfl
    | some i =>
      dsimp only
      split <;> rfl

@[simp] theorem deeds_callScript (target : String) : (callScript target).deeds call e = [] := by
  simp only [callScript, deeds]
  split
  · rfl
  · simp only [deeds]
    split <;> rfl

end Routine

/-- One thing asked of the world at most, and behind it one wait begun at most. -/
inductive Modest (pending : Option Wait) : List Deed → Prop where
  | idle : Modest pending []
  | asks {d : Deed} (asks : d.asksWorld = true) : Modest pending [d]
  | begins (wait : Wait) : Modest pending [.wait ⟨pending, wait⟩]
  | asksAndBegins {d : Deed} (asks : d.asksWorld = true) (wait : Wait) :
      Modest pending [d, .wait ⟨pending, wait⟩]

theorem beginning?_of_asksWorld {d : Deed} (h : d.asksWorld = true) : d.beginning? = none := by
  cases d with
  | wait beginning => cases h
  | _ => rfl

namespace Modest

variable {pending : Option Wait} {deeds : List Deed}

theorem asks_le (h : Modest pending deeds) : deeds.countP Deed.asksWorld ≤ 1 := by
  cases h with
  | idle => simp
  | asks asks => exact List.countP_le_length
  | begins wait => exact List.countP_le_length
  | asksAndBegins asks wait =>
    have hwait : (Deed.wait ⟨pending, wait⟩).asksWorld = false := rfl
    simp [asks, hwait]

theorem begins_le (h : Modest pending deeds) : (deeds.filterMap Deed.beginning?).length ≤ 1 := by
  cases h with
  | asksAndBegins asks wait =>
    rw [List.filterMap_cons_none (beginning?_of_asksWorld asks)]
    exact List.length_filterMap_le _ _
  | idle => exact Nat.zero_le _
  | _ => exact List.length_filterMap_le _ _

theorem pending_of_begins (h : Modest pending deeds) {b : Beginning}
    (hb : b ∈ deeds.filterMap Deed.beginning?) : b.pending = pending := by
  obtain ⟨d, hd, hbegins⟩ := List.mem_filterMap.mp hb
  cases h with
  | idle => cases hd
  | asks asks =>
    rw [List.mem_singleton.mp hd, beginning?_of_asksWorld asks] at hbegins
    cases hbegins
  | begins wait =>
    rw [List.mem_singleton.mp hd] at hbegins
    exact Option.some.inj hbegins ▸ rfl
  | asksAndBegins asks wait =>
    simp only [List.mem_cons, List.not_mem_nil, or_false] at hd
    rcases hd with rfl | rfl
    · rw [beginning?_of_asksWorld asks] at hbegins
      cases hbegins
    · exact Option.some.inj hbegins ▸ rfl

end Modest

variable {call : Call} {e ran : Engine ω}

theorem Action.modest (action : Action) : Modest e.chain.wait (action.routine.deeds call e) := by
  cases action with
  | perform effect wait =>
    cases wait with
    | none =>
      simp only [routine, Routine.deeds]
      cases e.perform effect <;> exact .asks rfl
    | some wait =>
      simp only [routine, Routine.deeds, Routine.deeds_suspend]
      cases hperform : e.perform effect with
      | error crash => exact .asks rfl
      | ok performed =>
        obtain ⟨world, -, rfl⟩ := Engine.perform_eq_ok.mp hperform
        exact .asksAndBegins rfl wait
  | park wait =>
    simp only [routine, Routine.deeds_suspend]
    exact .begins wait
  | assign name value => exact .asks rfl
  | draw name a b => exact .asks rfl
  | talk first last =>
    simp only [routine, Routine.showLines, Routine.deeds]
    cases World.talkLines? e.scene.world first last with
    | none => exact .idle
    | some lines =>
      cases lines with
      | nil => exact .idle
      | cons line rest =>
        simp only [Routine.deeds, Routine.deeds_suspend]
        cases hperform : e.perform (.dialog line.text line.portrait) with
        | error crash => exact .asks rfl
        | ok performed =>
          obtain ⟨world, -, rfl⟩ := Engine.perform_eq_ok.mp hperform
          exact .asksAndBegins rfl (.talk rest)
  | jump label =>
    simp only [routine, Routine.deeds_jumpTo]
    exact .idle
  | run target =>
    simp only [routine, Routine.deeds_callScript]
    exact .idle
  | _ => exact .idle

/-- A call does no more than one action of its command does. -/
theorem Handler.modest (handler : Handler) :
    Modest e.chain.wait (handler.routine.deeds call e) := by
  rw [handler.follows.deeds_eq]
  split
  · exact .idle
  · next action _ => exact action.modest

/-- An action that fails has done nothing. -/
theorem Engine.Acts.deeds_of_error {action : Action} {f : Fault}
    (h : e.Acts action ran (.error f)) : action.routine.deeds call e = [] := by
  cases h with
  | talkEmpty lines => simp only [Action.routine, Routine.showLines, Routine.deeds, lines]
  | jumpNowhere => exact Routine.deeds_jumpTo _
  | jumpLost lost => exact Routine.deeds_jumpTo _
  | runNothing missing => exact Routine.deeds_callScript _
  | runTooDeep full => exact Routine.deeds_callScript _

end Cutscene
