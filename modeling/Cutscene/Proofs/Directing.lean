import Cutscene.Director
import Cutscene.Proofs.Request

/-! Runs of a director. A request to the chain at one place leaves the chains at all other places as
they are, and owned chains stay in the order of their keys whatever is asked. -/

namespace Cutscene.Director

/-- What a host asks of a director, or of one of its chains. What a host changes around one chain it
changes around all of them. -/
inductive Request (ω : Type) where
  | run (path : String) (owner : Option Owner)
  | runOwned (owner : Owner) (path : String)
  | update (elapsed : Int)
  | closeDialog
  | select (index : Int32)
  | takeDiagnostics
  | observe (observed : Bool)
  | stop
  | onChain (place : Place) (request : Cutscene.Request ω)

variable {ω : Type} [World ω]

def answer (d : Director ω) : Request ω → Except (Crash ω) (Answer ω)
  | .run path owner => d.runScript path owner
  | .runOwned owner path => d.runOwned owner path
  | .update elapsed => (d.update elapsed).map fun d => (d, .ok ())
  | .closeDialog => d.closeDialog
  | .select index => d.select index
  | .takeDiagnostics => .ok (d.takeDiagnostics.1, .ok ())
  | .observe observed => .ok (d.observe observed, .ok ())
  | .stop => .ok (d.stop, .ok ())
  | .onChain place request => d.onChain place (·.answer request)

def serve : List (Request ω) → Director ω → Except (Crash ω) (Director ω)
  | [], d => .ok d
  | r :: rs, d => do serve rs (← d.answer r).1

/-- What a new director comes to. -/
def Reached (d : Director ω) : Prop :=
  ∃ options scene rs, serve rs (.ofOptions options scene) = .ok d

omit [World ω]

/-- The chain at a place, as far as there is one. -/
def runner? (d : Director ω) : Place → Option Runner
  | none => some d.global
  | some k => d.owned.get? k

/-- Has a chain for an owner, be it a new one. -/
def hosting (d : Director ω) (owner : Owner) : Director ω :=
  let fresh : Runner := { Runner.ofOptions .standard d.options with observed := d.observed }
  { d with owned := d.owned.insert owner.key ((d.owned.get? owner.key).getD fresh) }

def places (d : Director ω) : List Place := none :: d.owned.keys.map some

variable {d d' : Director ω} {q q' : Place} {r : Runner} {e : Engine ω}

theorem owned_observe (d : Director ω) (observed : Bool) :
    (d.observe observed).owned = d.owned.map fun p => (p.1, { p.2 with observed }) := rfl

def cleared (r : Runner) : Runner := { r with diagnostics := #[] }

theorem owned_takeDiagnostics (d : Director ω) : d.takeDiagnostics.1.owned =
    (d.owned.map fun p => (p.1, cleared p.2)).filter (·.2.chain.isRunning) := rfl

theorem engine?_eq (d : Director ω) (q : Place) :
    d.engine? q = (d.runner? q).map fun r => .ofRunner r d.scene := by
  cases q with
  | none => rfl
  | some k => rfl

theorem runner?_restore (d : Director ω) (q q' : Place) (e : Engine ω) :
    (d.restore q e).runner? q' = if q = q' then some e.toRunner else d.runner? q' := by
  cases q with
  | none =>
    cases q' with
    | none => rfl
    | some k => rfl
  | some k =>
    cases q' with
    | none => rfl
    | some k' => simp [restore, runner?, Dict.get?_insert]

theorem sorted_restore (h : d.owned.Sorted) (q : Place) (e : Engine ω) :
    (d.restore q e).owned.Sorted := by
  cases q with
  | none => exact h
  | some k => exact h.insert k e.toRunner

theorem runner?_hosting (d : Director ω) (owner : Owner) (hq : q ≠ some owner.key) :
    (d.hosting owner).runner? q = d.runner? q := by
  cases q with
  | none => rfl
  | some k =>
    have hne : owner.key ≠ k := fun heq => hq (congrArg some heq.symm)
    simp [hosting, runner?, Dict.get?_insert, hne]

theorem mem_places : q ∈ d.places ↔ (d.runner? q).isSome = true := by
  cases q with
  | none => simp [places, runner?]
  | some k => simp [places, runner?, Dict.mem_keys, Option.isSome_iff_exists]

theorem nodup_places (h : d.owned.Sorted) : d.places.Nodup := by
  have hkeys : d.owned.keys.Nodup := by
    refine List.pairwise_map.mpr (List.Pairwise.imp (fun hlt heq => ?_) h)
    exact String.lt_irrefl _ (heq ▸ hlt)
  refine List.nodup_cons.mpr ⟨by simp, ?_⟩
  exact List.pairwise_map.mpr (hkeys.imp fun hne heq => hne (Option.some.inj heq))

variable {request : Engine ω → Except (Crash ω) (Engine.Answer ω)} {result : Except Fault Unit}

theorem onChain_absent (h : d.runner? q = none) : d.onChain q request = .ok (d, .ok ()) := by
  simp [onChain, engine?_eq, h]

theorem onChain_there (h : d.runner? q = some r) :
    d.onChain q request = (request (.ofRunner r d.scene)).map fun a => (d.restore q a.1, a.2) := by
  simp only [onChain, engine?_eq, h, Option.map_some]
  cases request (.ofRunner r d.scene) with
  | error crash => rfl
  | ok a => rfl

theorem onChain_cases (h : d.onChain q request = .ok (d', result)) :
    (d.runner? q = none ∧ d' = d ∧ result = .ok ()) ∨
      ∃ r e, d.runner? q = some r ∧ request (.ofRunner r d.scene) = .ok (e, result) ∧
        d' = d.restore q e := by
  cases hr : d.runner? q with
  | none =>
    rw [onChain_absent hr] at h
    obtain ⟨rfl, rfl⟩ := Prod.mk.inj (Except.ok.inj h)
    exact Or.inl ⟨rfl, rfl, rfl⟩
  | some r =>
    rw [onChain_there hr] at h
    obtain ⟨⟨e, result'⟩, hanswer, heq⟩ := map_eq_ok.mp h
    obtain ⟨rfl, rfl⟩ := Prod.mk.inj heq
    exact Or.inr ⟨r, e, rfl, hanswer, rfl⟩

theorem runner?_onChain (h : d.onChain q request = .ok (d', result)) (hq : q' ≠ q) :
    d'.runner? q' = d.runner? q' := by
  rcases onChain_cases h with ⟨-, rfl, -⟩ | ⟨r, e, -, -, rfl⟩
  · rfl
  · rw [runner?_restore, if_neg hq.symm]

theorem sorted_onChain (hs : d.owned.Sorted) (h : d.onChain q request = .ok (d', result)) :
    d'.owned.Sorted := by
  rcases onChain_cases h with ⟨-, rfl, -⟩ | ⟨r, e, -, -, rfl⟩
  · exact hs
  · exact sorted_restore hs q e

variable [World ω]

/-- The chain that a request is for, and what is asked of it. -/
inductive Asks (d : Director ω) :
    Request ω → Director ω → Place → Cutscene.Request ω → Prop where
  | run {path : String} {owner : Option Owner} :
      Asks d (.run path owner) d none (.run path owner)
  | runOwned {owner : Owner} {path : String} :
      Asks d (.runOwned owner path) (d.hosting owner) (some owner.key) (.run path (some owner))
  | closeDialog : Asks d .closeDialog d (d.taker Wait.isDialog) .closeDialog
  | select {index : Int32} : Asks d (.select index) d (d.taker Wait.isSelection) (.select index)
  | onChain {q : Place} {asked : Cutscene.Request ω} : Asks d (.onChain q asked) d q asked

variable {d₁ : Director ω} {r : Request ω} {asked : Cutscene.Request ω}

theorem answer_of_asks (h : d.Asks r d₁ q asked) : d.answer r = d₁.onChain q (·.answer asked) := by
  cases h with
  | run => rfl
  | runOwned => rfl
  | closeDialog => rfl
  | select => rfl
  | onChain => rfl

theorem sorted_updateChain {elapsed : Int} {places : List Place} (hs : d.owned.Sorted)
    (h : places.foldlM (updateChain elapsed) d = .ok d') : d'.owned.Sorted := by
  induction places generalizing d with
  | nil =>
    obtain rfl := Except.ok.inj h
    exact hs
  | cons q places ih =>
    rw [List.foldlM_cons, bind_eq_ok] at h
    obtain ⟨d₁, hfirst, hrest⟩ := h
    obtain ⟨⟨d₂, result⟩, hon, rfl⟩ := map_eq_ok.mp hfirst
    exact ih (sorted_onChain hs hon) hrest

theorem update_cases {elapsed : Int} (h : d.update elapsed = .ok d') :
    ∃ t, d.places.foldlM (updateChain elapsed) d = .ok t ∧
      { t with owned := t.owned.filter (isKept ·.2) } = d' := by
  obtain ⟨t, hticks, hswept⟩ := bind_eq_ok.mp h
  exact ⟨t, hticks, Except.ok.inj hswept⟩

theorem sorted_of_asks (hs : d.owned.Sorted) (hasks : d.Asks r d₁ q asked)
    (h : d.answer r = .ok (d', result)) : d'.owned.Sorted := by
  rw [answer_of_asks hasks] at h
  refine sorted_onChain ?_ h
  cases hasks with
  | runOwned => exact hs.insert _ _
  | _ => exact hs

theorem sorted_of_answer (hs : d.owned.Sorted) (h : d.answer r = .ok (d', result)) :
    d'.owned.Sorted := by
  cases r with
  | run path owner => exact sorted_of_asks hs .run h
  | runOwned owner path => exact sorted_of_asks hs .runOwned h
  | update elapsed =>
    rw [answer, map_eq_ok] at h
    obtain ⟨d₁, hupdate, heq⟩ := h
    obtain ⟨t, hticks, hswept⟩ := update_cases hupdate
    obtain ⟨rfl, -⟩ := Prod.mk.inj heq
    subst hswept
    exact (sorted_updateChain hs hticks).filter _
  | closeDialog => exact sorted_of_asks hs .closeDialog h
  | select index => exact sorted_of_asks hs .select h
  | takeDiagnostics =>
    rw [answer, Except.ok.injEq, Prod.mk.injEq] at h
    rw [← h.1, owned_takeDiagnostics]
    exact (hs.map cleared).filter _
  | observe observed =>
    rw [answer, Except.ok.injEq, Prod.mk.injEq] at h
    rw [← h.1, owned_observe]
    exact hs.map fun r => { r with observed }
  | stop =>
    rw [answer, Except.ok.injEq, Prod.mk.injEq] at h
    rw [← h.1]
    exact List.Pairwise.nil
  | onChain q asked => exact sorted_of_asks hs .onChain h

theorem sorted_of_serve {rs : List (Request ω)} (hs : d.owned.Sorted)
    (h : serve rs d = .ok d') : d'.owned.Sorted := by
  induction rs generalizing d with
  | nil =>
    obtain rfl := Except.ok.inj h
    exact hs
  | cons r rs ih =>
    obtain ⟨⟨d₁, result⟩, hanswer, hrest⟩ := bind_eq_ok.mp h
    exact ih (sorted_of_answer hs hanswer) hrest

theorem Reached.sorted (h : Reached d) : d.owned.Sorted := by
  obtain ⟨options, scene, rs, hserve⟩ := h
  have hnew : (ofOptions options scene).owned.Sorted := List.Pairwise.nil
  exact sorted_of_serve hnew hserve

end Cutscene.Director
