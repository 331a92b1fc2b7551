import Cutscene.Command.Control
import Cutscene.Proofs.Round
import Cutscene.World.Recording

/-! Runs of an engine. The host takes its turn while the engine rests, and what it asks for may let
the engine take turns of its own; the resting phases of a run are those that answering requests one
after the other comes to. -/

namespace Cutscene

variable {ω : Type} [World ω]

/-- A turn of the host, with what it asks for, or a round of the engine. -/
inductive Turn : Option (Request ω) → Phase ω → Phase ω → Prop where
  | round {s t : Phase ω} (round : Round s t) : Turn none s t
  | request {e : Engine ω} {r : Request ω} {o : Opening ω} (opens : e.opening r = .ok o) :
      Turn (some r) (.resting e) o.phase

abbrev Reaches : Phase ω → Phase ω → Prop :=
  Relation.ReflTransGen fun s t => ∃ asked, Turn asked s t

/-- What the run of a new engine comes to, on a cache from which the faults were taken. -/
def Reachable (table : CommandTable) (options : Options) (s : Phase ω) : Prop :=
  ∃ scene : Scene ω, scene.cache.faults = [] ∧ Reaches (.resting (.fresh table options scene)) s

/-- What every turn keeps holds of whatever is reached from where it held. -/
theorem invariant_of_reaches {s t : Phase ω} {P : Phase ω → Prop} (h : Reaches s t) (hs : P s)
    (hturn : ∀ {asked u v}, Reaches s u → P u → Turn asked u v → P v) : P t := by
  induction h with
  | refl => exact hs
  | tail hu ht ih =>
    obtain ⟨asked, ht⟩ := ht
    exact hturn hu ih ht

/-- Turns during which the host asks only for what is allowed. -/
abbrev ReachesBy (allowed : Request ω → Prop) : Phase ω → Phase ω → Prop :=
  Relation.ReflTransGen fun s t => ∃ asked, (∀ r, asked = some r → allowed r) ∧ Turn asked s t

theorem invariant_of_reachesBy {allowed : Request ω → Prop} {s t : Phase ω} {P : Phase ω → Prop}
    (h : ReachesBy allowed s t) (hs : P s)
    (hround : ∀ {u v}, ReachesBy allowed s u → P u → Round u v → P v)
    (hopen : ∀ {e r o}, ReachesBy allowed s (.resting e) → P (.resting e) → allowed r →
      e.opening r = .ok o → P o.phase) : P t := by
  induction h with
  | refl => exact hs
  | tail hu ht ih =>
    obtain ⟨asked, hallowed, ht⟩ := ht
    cases ht with
    | round round => exact hround hu ih round
    | request opens => exact hopen hu ih (hallowed _ rfl) opens

namespace Engine

theorem serve_concat (rs : List (Request ω)) (r : Request ω) (e : Engine ω) :
    serve (rs ++ [r]) e = serve rs e >>= serve [r] := by
  induction rs generalizing e with
  | nil => rfl
  | cons q rs ih =>
    cases hq : e.answer q with
    | error crash => simp only [List.cons_append, serve, hq, error_bind]
    | ok a => simp only [List.cons_append, serve, hq, ok_bind, ih]

theorem answer_eq_ok_iff {e e' : Engine ω} {r : Request ω} {result : Except Fault Unit} :
    e.answer r = .ok (e', result) ↔
      ∃ o, e.opening r = .ok o ∧ o.result = result ∧ Rounds o.phase (.resting e') := by
  simp only [answer_eq_opening, bind_eq_ok, Opening.answer, map_eq_ok, Prod.mk.injEq,
    outcome_iff_rounds]
  constructor
  · rintro ⟨o, hopen, e'', hrounds, rfl, rfl⟩
    exact ⟨o, hopen, rfl, hrounds⟩
  · rintro ⟨o, hopen, rfl, hrounds⟩
    exact ⟨o, hopen, e', hrounds, rfl, rfl⟩

theorem reachesBy_of_rounds {allowed : Request ω → Prop} {s t : Phase ω} (h : Rounds s t) :
    ReachesBy allowed s t :=
  h.lift id fun _ _ hround => ⟨none, by simp, .round hround⟩

theorem reachesBy_of_answer {allowed : Request ω → Prop} {e : Engine ω} {r : Request ω}
    {a : Answer ω} (hallowed : allowed r) (h : e.answer r = .ok a) :
    ReachesBy allowed (.resting e) (.resting a.1) := by
  obtain ⟨e', result⟩ := a
  obtain ⟨o, hopen, -, hrounds⟩ := answer_eq_ok_iff.mp h
  exact .head ⟨some r, by simpa using hallowed, .request hopen⟩ (reachesBy_of_rounds hrounds)

theorem reachesBy_of_serve {allowed : Request ω → Prop} {rs : List (Request ω)}
    {e e' : Engine ω} (hallowed : ∀ r ∈ rs, allowed r) (h : serve rs e = .ok e') :
    ReachesBy allowed (.resting e) (.resting e') := by
  induction rs generalizing e with
  | nil =>
    rw [serve, Except.ok.injEq] at h
    exact h ▸ .refl
  | cons r rs ih =>
    rw [serve, bind_eq_ok] at h
    obtain ⟨a, ha, hrest⟩ := h
    have hfirst := reachesBy_of_answer (hallowed r List.mem_cons_self) ha
    exact hfirst.trans (ih (fun q hq => hallowed q (List.mem_cons_of_mem _ hq)) hrest)

theorem reaches_of_reachesBy {allowed : Request ω → Prop} {s t : Phase ω}
    (h : ReachesBy allowed s t) : Reaches s t :=
  h.lift id fun _ _ ⟨asked, _, hturn⟩ => ⟨asked, hturn⟩

theorem reaches_of_serve {rs : List (Request ω)} {e e' : Engine ω} (h : serve rs e = .ok e') :
    Reaches (.resting e) (.resting e') :=
  reaches_of_reachesBy (reachesBy_of_serve (fun _ _ => trivial) h)

theorem serve_of_reaches {e r : Engine ω} {s : Phase ω} (h : Reaches (.resting e) s)
    (hout : s.outcome = .ok r) : ∃ rs, serve rs e = .ok r := by
  induction h generalizing r with
  | refl => exact ⟨[], hout⟩
  | tail _ hturn ih =>
    obtain ⟨asked, hturn⟩ := hturn
    cases hturn with
    | round hround => exact ih (hround.outcome_eq.trans hout)
    | @request e' q o hopen =>
      obtain ⟨rs, hrs⟩ := ih (r := e') rfl
      have hanswer : e'.answer q = .ok (r, o.result) := by
        rw [answer_eq_opening, hopen, ok_bind, Opening.answer, hout, ok_map]
      exact ⟨rs ++ [q], by rw [serve_concat, hrs, ok_bind, serve, hanswer, ok_bind, serve]⟩

theorem serve_iff_reaches {e r : Engine ω} :
    (∃ rs, serve rs e = .ok r) ↔ Reaches (.resting e) (.resting r) :=
  ⟨fun ⟨_, h⟩ => reaches_of_serve h, fun h => serve_of_reaches h rfl⟩

end Engine

/-! A small stage, to show runs on. -/

namespace Rehearsal

def table : CommandTable := Command.control.foldl CommandTable.register []

def scene : Scene Recording where
  world := {}
  cache := { read := fun path =>
    if path = "inner" then .ok "Sleep(5);" else .error { cause := .scriptUnavailable path } }

/-- Where a phase stands, with which callers, whether it is held, and what it has left. -/
structure Glance where
  position : Option Position
  callers : List Position
  held : Bool
  left : Option Nat
  deriving DecidableEq

def glance : Phase Recording → Glance
  | .resting e => ⟨e.chain.position, e.chain.callers, e.isHeld, none⟩
  | .running left e => ⟨e.chain.position, e.chain.callers, e.isHeld, some left⟩

theorem running_of_glance {s : Phase Recording} {p : Option Position} {callers : List Position}
    {held : Bool} {left : Nat} (h : glance s = ⟨p, callers, held, some left⟩) :
    ∃ e, s = .running left e ∧ e.chain.position = p ∧ e.chain.callers = callers ∧
      e.isHeld = held := by
  cases s with
  | resting e => simp [glance] at h
  | running left' e =>
    simp only [glance, Glance.mk.injEq, Option.some.injEq] at h
    obtain ⟨hposition, hcallers, hheld, rfl⟩ := h
    exact ⟨e, rfl, hposition, hcallers, hheld⟩

end Rehearsal

end Cutscene
