import Cutscene.Proofs.Jumping

/-! Counts of passages. The log of a run holds every passage since the chain was last stopped, and
the counts of the chain are the counts of the log; a passage that they have no room for breaks the
run down. -/

namespace Cutscene

namespace Passage

/-- How many passages of a log have a key. -/
def count (log : List Passage) (k : String) : Nat := log.countP (·.key = k)

theorem count_concat (log : List Passage) (x : Passage) (k : String) :
    count (log ++ [x]) k = count log k + if x.key = k then 1 else 0 := by
  simp [count, List.countP_append, List.countP_singleton]

end Passage

namespace Chain

/-- A key that was passed is there with the number of its passages, and no other key is there. -/
def Counts (c : Chain) (log : List Passage) : Prop :=
  ∀ key, (c.visits.get? key).map UInt32.toNat =
    if Passage.count log key = 0 then none else some (Passage.count log key)

variable {c c' : Chain} {p : Position} {log : List Passage}

theorem counts_nil : Chain.Counts {} [] := fun _ => rfl

theorem Counts.of_visits (h : c.Counts log) (hvisits : c'.visits = c.visits) : c'.Counts log :=
  fun key => hvisits ▸ h key

theorem Counts.unpassed {passed : Option Passage} (h : c.Counts log) (hnone : passed = none)
    (hvisits : c'.visits = c.visits) : c'.Counts (log ++ passed.toList) := by
  rw [hnone, Option.toList_none, List.append_nil]
  exact h.of_visits hvisits

theorem Counts.visitsOf (h : c.Counts log) (key : String) :
    (c.visitsOf key).toNat = Passage.count log key := by
  have hkey := h key
  unfold Chain.visitsOf
  cases hget : c.visits.get? key with
  | none =>
    rw [hget] at hkey
    split at hkey
    · next hnone => rw [hnone]; rfl
    · cases hkey
  | some n =>
    rw [hget] at hkey
    split at hkey
    · cases hkey
    · exact Option.some.inj hkey

theorem Counts.canCount_iff (h : c.Counts log) (hp : c.position = some p) (name : String) :
    c.canCount name = true ↔
      Passage.count log (⟨p.script.file, name⟩ : Passage).key + 1 < UInt32.size := by
  rw [canCount, hereKey_of_position hp, h.visitsOf, decide_eq_true_eq]

theorem Counts.countVisit (h : c.Counts log) (hp : c.position = some p) {name : String}
    (hcounts : c.canCount name = true) :
    (c.countVisit name).Counts (log ++ [⟨p.script.file, name⟩]) := by
  have hroom := (h.canCount_iff hp name).mp hcounts
  intro key
  rw [Chain.countVisit, hereKey_of_position hp, Dict.get?_insert, Passage.count_concat]
  by_cases hsame : (⟨p.script.file, name⟩ : Passage).key = key
  · subst hsame
    have hnext : (c.visitsOf (⟨p.script.file, name⟩ : Passage).key + 1).toNat =
        Passage.count log (⟨p.script.file, name⟩ : Passage).key + 1 := by
      rw [UInt32.toNat_add, h.visitsOf]
      exact Nat.mod_eq_of_lt hroom
    rw [if_pos rfl, if_pos rfl, if_neg (Nat.succ_ne_zero _), Option.map_some, hnext]
  · rw [if_neg hsame, if_neg hsame, Nat.add_zero]
    exact h key

theorem visits_goBack (c : Chain) : c.goBack.visits = c.visits := by
  unfold goBack
  cases hleave : c.leave? with
  | none => rfl
  | some c' =>
    obtain ⟨caller, callers, -, rfl⟩ := leave?_eq_some.mp hleave
    rfl

end Chain

namespace Engine

variable {ω : Type} [World ω] {e e' : Engine ω} {p : Position} {i : Instruction} {c : Call}
  {action : Action} {r : Request ω} {o : Opening ω} {log : List Passage}

theorem visits_of_acts {course : Except Fault Course} (h : e.Acts action e' course)
    (hother : ∀ label, action ≠ .jump label) : e'.chain.visits = e.chain.visits := by
  cases h with
  | jump stands marked counts => exact absurd rfl (hother _)
  | jumpNowhere => exact absurd rfl (hother _)
  | jumpLost lost => exact absurd rfl (hother _)
  | goBack => exact Chain.visits_goBack _
  | _ => rfl

omit [World ω] in
theorem visits_of_follow (e : Engine ω) (file : String) (c : Call) (course : Except Fault Course) :
    (e.follow file c course).chain.visits = e.chain.visits := by
  rw [follow_chain]
  split <;> rfl

theorem visits_of_dispatched {file : String} (h : e.Dispatched file c e')
    (hother : ∀ label, ¬e.Asks c (.jump label)) : e'.chain.visits = e.chain.visits := by
  cases h with
  | unresolved unknown => rfl
  | refused resolves refuses => exact visits_of_follow _ _ _ _
  | acted asks acts =>
    rw [visits_of_follow]
    exact visits_of_acts acts fun label heq => hother label (heq ▸ asks)

/-- An instruction adds the label that it passes to the log, if it passes one. -/
theorem counts_step (h : e.chain.Counts log) (hp : e.chain.position = some p)
    (hstep : e.step p i = .ok e') : e'.chain.Counts (log ++ (e.passes? p i).toList) := by
  cases i with
  | marker name literal line =>
    obtain ⟨hcounts, rfl⟩ := step_marker_eq_ok.mp hstep
    exact (h.countVisit hp hcounts).of_visits rfl
  | call c =>
    -- a jump is followed to where it lands; no other call counts a passage
    by_cases hjump : ∃ label, e.Asks c (.jump label)
    · obtain ⟨label, hasks⟩ := hjump
      have hlands := step_jump hp hasks
      rw [hstep] at hlands
      rw [passes?_of_jump hasks]
      cases hlands with
      | behind marked counts moved silent =>
        rw [Script.labelIndex?, marked, moved]
        exact (h.countVisit hp counts).of_visits rfl
      | nowhere missing passed told code =>
        rw [Script.labelIndex?, missing, passed]
        exact h.unpassed rfl rfl
    · have hother : ∀ label, ¬e.Asks c (.jump label) := not_exists.mp hjump
      have hvisits := visits_of_dispatched (dispatched_of_dispatch hstep)
        (fun label hasks => hother label (asks_observe.mp hasks))
      exact h.unpassed (passes?_of_other hother) (hvisits.trans (by simp))

/-- What passes a label goes on just if the passage can be counted. -/
theorem step_passing {x : Passage} (h : e.chain.Counts log) (hp : e.chain.position = some p)
    (hpasses : e.passes? p i = some x) :
    (Passage.count log x.key + 1 < UInt32.size → ∃ e', e.step p i = .ok e') ∧
    (UInt32.size ≤ Passage.count log x.key + 1 →
      e.step p i = .error ⟨.visits x.key, e.scene.world⟩) := by
  have hfull : ∀ name, UInt32.size ≤ Passage.count log (⟨p.script.file, name⟩ : Passage).key + 1 →
      e.chain.canCount name = false := fun name hle =>
    Bool.eq_false_iff.mpr fun hcan => absurd ((h.canCount_iff hp name).mp hcan) (by omega)
  cases i with
  | marker name literal line =>
    obtain rfl := Option.some.inj hpasses
    refine ⟨fun hroom => ⟨_, step_marker_eq_ok.mpr ⟨(h.canCount_iff hp name).mpr hroom, rfl⟩⟩, ?_⟩
    intro hle
    rw [step, pass_eq_error.mpr ⟨hfull name hle, rfl⟩, Chain.hereKey_of_position hp]
    rfl
  | call c =>
    by_cases hjump : ∃ label, e.Asks c (.jump label)
    · obtain ⟨label, hasks⟩ := hjump
      rw [passes?_of_jump hasks] at hpasses
      obtain ⟨m, hmarked, rfl⟩ := Option.map_eq_some_iff.mp hpasses
      have hlands := step_jump hp hasks
      refine ⟨fun hroom => hlands.ok_iff.mpr (Or.inr ((h.canCount_iff hp _).mpr hroom)), ?_⟩
      intro hle
      rw [hlands.of_full hmarked (hfull _ hle), Chain.hereKey_of_position hp]
    · rw [passes?_of_other (not_exists.mp hjump)] at hpasses
      cases hpasses

theorem visits_of_opening (hopen : e.opening r = .ok o) (hgoes : r ≠ .stop) :
    o.phase.chain.visits = e.chain.visits := by
  have hopens := (opens_of_opening hopen).1
  generalize o.phase.chain = chain at hopens
  cases hopens with
  | stop => exact absurd rfl hgoes
  | _ => rfl

end Engine

open Engine

variable {ω : Type} [World ω] {table : CommandTable} {options : Options} {log : List Passage}
  {s t : Phase ω}

theorem counts_round (h : s.chain.Counts log) (round : Round s t) :
    t.chain.Counts (log ++ s.passes?.toList) := by
  cases round with
  | halt held => exact h.unpassed (passes?_of_held held) rfl
  | leave free runs ended leaves =>
    obtain ⟨caller, callers, -, rfl⟩ := Chain.leave?_eq_some.mp leaves
    exact h.unpassed (passes?_of_end ended) rfl
  | finish free ended alone => exact h.unpassed (passes?_of_end ended) rfl
  | yield free stands next => exact h.unpassed rfl (by simp)
  | step free stands next ran =>
    rw [passes?_of_free free stands next]
    exact counts_step h stands ran

/-- A run of a new engine, with the log of what it passed since it was last stopped. -/
inductive Journey (table : CommandTable) (options : Options) : List Passage → Phase ω → Prop where
  | begin {scene : Scene ω} (taken : scene.cache.faults = []) :
      Journey table options [] (.resting (.fresh table options scene))
  | round {log : List Passage} {s t : Phase ω} (before : Journey table options log s)
      (round : Round s t) : Journey table options (log ++ s.passes?.toList) t
  | request {log : List Passage} {e : Engine ω} {r : Request ω} {o : Opening ω}
      (before : Journey table options log (.resting e)) (goes : r ≠ .stop)
      (opens : e.opening r = .ok o) : Journey table options log o.phase
  | stop {log : List Passage} {e : Engine ω} (before : Journey table options log (.resting e)) :
      Journey table options [] (.resting e.stop)

theorem Journey.reachable (h : Journey table options log s) : Reachable table options s := by
  induction h with
  | begin taken => exact ⟨_, taken, .refl⟩
  | round before round ih =>
    obtain ⟨scene, htaken, hreaches⟩ := ih
    exact ⟨scene, htaken, hreaches.tail ⟨none, .round round⟩⟩
  | @request log e r o before goes opens ih =>
    obtain ⟨scene, htaken, hreaches⟩ := ih
    exact ⟨scene, htaken, hreaches.tail ⟨some r, .request opens⟩⟩
  | @stop log e before ih =>
    obtain ⟨scene, htaken, hreaches⟩ := ih
    exact ⟨scene, htaken, hreaches.tail ⟨some .stop, .request (o := e.stop.rests) rfl⟩⟩

theorem exists_journey (h : Reachable table options s) : ∃ log, Journey table options log s := by
  obtain ⟨scene, htaken, hreaches⟩ := h
  refine invariant_of_reaches (P := fun s => ∃ log, Journey table options log s) hreaches
    ⟨[], .begin htaken⟩ ?_
  rintro asked s t - ⟨log, hlog⟩ hturn
  cases hturn with
  | round round => exact ⟨_, hlog.round round⟩
  | @request e r o opens =>
    by_cases hstop : r = .stop
    · subst hstop
      obtain rfl := Except.ok.inj opens
      exact ⟨[], hlog.stop⟩
    · exact ⟨log, hlog.request hstop opens⟩

theorem Journey.counts (h : Journey table options log s) : s.chain.Counts log := by
  induction h with
  | begin taken => exact Chain.counts_nil
  | round before round ih => exact counts_round ih round
  | request before goes opens ih => exact ih.of_visits (visits_of_opening opens goes)
  | stop before ih => exact Chain.counts_nil

/-- Every run has a log, and the counts of its chain are those of the log. What passes a label adds
to the log, and it goes on just if the passage can be counted; else the run breaks down. A jump goes
behind the first marker of its label and counts one passage; without a marker it counts none, is
reported once, and the chain goes on at the next line. -/
theorem visits_count_passages (table : CommandTable) (options : Options) (s : Phase ω) :
    (Reachable table options s ↔ ∃ log, Journey table options log s) ∧
    ∀ log, Journey table options log s → s.chain.Counts log ∧
      ∀ p, s.chain.position = some p →
        (∀ i x, s.engine.passes? p i = some x →
          (Passage.count log x.key + 1 < UInt32.size → ∃ e', s.engine.step p i = .ok e' ∧
            e'.chain.Counts (log ++ [x])) ∧
          (UInt32.size ≤ Passage.count log x.key + 1 →
            s.engine.step p i = .error ⟨.visits x.key, s.engine.scene.world⟩)) ∧
        ∀ c label, s.engine.Asks c (.jump label) →
          (∃ i, IsFirstMarker p.script.instructions (Label.normalize label) i ∧
            s.engine.passes? p (.call c) = some ⟨p.script.file, Label.normalize label⟩ ∧
            ∀ e', s.engine.step p (.call c) = .ok e' →
              e'.chain = { s.chain.countVisit (Label.normalize label) with line := i + 1 } ∧
              e'.diagnostics = s.engine.diagnostics) ∨
          (∀ i ∈ p.script.instructions, i.marks (Label.normalize label) = false) ∧
            s.engine.passes? p (.call c) = none ∧
            ∃ e', s.engine.step p (.call c) = .ok e' ∧ e'.chain = s.chain.advance ∧
              ∃ f, f.code = "ENGINE_LABEL_MISSING" ∧
                e'.diagnostics = s.engine.diagnostics.push f := by
  refine ⟨⟨exists_journey, fun ⟨log, hlog⟩ => hlog.reachable⟩,
    fun log hlog => ⟨hlog.counts, fun p hp => ⟨fun i x hpasses => ?_, fun c label hasks => ?_⟩⟩⟩
  · obtain ⟨hgoes, hbreaks⟩ := step_passing hlog.counts hp hpasses
    refine ⟨fun hroom => ?_, hbreaks⟩
    obtain ⟨e', hstep⟩ := hgoes hroom
    have hcounts := counts_step hlog.counts hp hstep
    rw [hpasses] at hcounts
    exact ⟨e', hstep, hcounts⟩
  · have hlands := step_jump hp hasks
    have htaken : s.engine.reportLines = s.engine :=
      reportLines_of_taken _ hlog.reachable.frame.2.2
    rw [passes?_of_jump hasks, Script.labelIndex?]
    cases hmarked : p.script.markerOf? (Label.normalize label) with
    | some i =>
      refine Or.inl ⟨i, Script.markerOf?_eq_some_iff.mp hmarked, rfl, fun e' hstep => ?_⟩
      rw [hstep] at hlands
      cases hlands with
      | @behind i' _ marked counts moved silent =>
        obtain rfl := Option.some.inj (marked.symm.trans hmarked)
        exact ⟨moved, silent.trans (by rw [htaken])⟩
      | nowhere missing passed told code => cases hmarked.symm.trans missing
    | none =>
      refine Or.inr ⟨Script.markerOf?_eq_none_iff.mp hmarked, rfl, ?_⟩
      generalize s.engine.step p (.call c) = r at hlands
      cases hlands with
      | behind marked counts moved silent => cases hmarked.symm.trans marked
      | full marked full => cases hmarked.symm.trans marked
      | nowhere missing passed told code =>
        exact ⟨_, rfl, passed, _, code, by rw [told, htaken]⟩

namespace Rehearsal

/-- A loop of three laps. -/
def laps : String := "@Lap:\nAdd($i, 1);\nIf($i < 3, @lap);"

def lapped : Script := (Script.parse "laps" laps).script

def again : Call := ⟨"If", ["$i < 3", "@lap"], "", "If($i < 3, @lap);", 3⟩

/-- The second of three laps ends with the step that it yields after. -/
theorem laps_counted : ∃ (s : Phase Recording) (log : List Passage) (e' : Engine Recording),
    Journey Rehearsal.table { maxSteps := 4 } log s ∧ Passage.count log "laps#@lap:" = 2 ∧
    s.chain.position = some ⟨lapped, 2⟩ ∧ s.engine.Asks again (.jump "@lap") ∧
    s.engine.step ⟨lapped, 2⟩ (.call again) = .ok e' ∧
    e'.chain.position = some ⟨lapped, 1⟩ ∧ e'.chain.visits.get? "laps#@lap:" = some 3 := by
  obtain ⟨e, hserve, hstate⟩ := exists_ok
    (r := serve [.runContent "laps" laps none] (fresh Rehearsal.table { maxSteps := 4 } scene))
    (f := fun e => (e.chain.visits, e.chain.position, e.asked? again))
    (b := ([("laps#@lap:", 2)], some ⟨lapped, 2⟩, some (.jump "@lap"))) (by decide +kernel)
  obtain ⟨hvisits, hstate⟩ := Prod.mk.inj hstate
  obtain ⟨hposition, hasked⟩ := Prod.mk.inj hstate
  have hasks := asked?_eq_some_iff.mp hasked
  obtain ⟨hruns, hcounts⟩ :=
    visits_count_passages Rehearsal.table { maxSteps := 4 } (.resting e)
  obtain ⟨log, hlog⟩ := hruns.mp ⟨scene, rfl, reaches_of_serve hserve⟩
  obtain ⟨hcount, hjumps⟩ := hcounts log hlog
  obtain ⟨hpassing, hjump⟩ := hjumps _ hposition
  have hmarker : lapped.markerOf? (Label.normalize "@lap") = some 0 := by decide +kernel
  have hkey : Chain.visitKey "laps" (Label.normalize "@lap") = "laps#@lap:" := by decide +kernel
  have htwo : Passage.count log "laps#@lap:" = 2 := by
    have hget := hcount "laps#@lap:"
    rw [Phase.chain_resting, hvisits] at hget
    split at hget
    · cases hget
    · exact (Option.some.inj hget).symm
  rcases hjump again "@lap" hasks with ⟨i, hfirst, hpasses, hlands⟩ | ⟨hmissing, -⟩
  · obtain rfl : i = 0 :=
      Option.some.inj ((Script.markerOf?_eq_some_iff.mpr hfirst).symm.trans hmarker)
    have hroom : Passage.count log (Passage.key ⟨lapped.file, Label.normalize "@lap"⟩) + 1 <
        UInt32.size := by
      change Passage.count log (Chain.visitKey "laps" (Label.normalize "@lap")) + 1 < UInt32.size
      rw [hkey, htwo]
      decide
    obtain ⟨e', hstep, hcounted⟩ := (hpassing _ _ hpasses).1 hroom
    refine ⟨.resting e, log, e', hlog, htwo, hposition, hasks, hstep, ?_, ?_⟩
    · rw [(hlands e' hstep).1]
      exact Chain.position_eq_some.mpr ⟨(Chain.position_eq_some.mp hposition).1, rfl⟩
    · have hhere : e.chain.hereKey (Label.normalize "@lap") = "laps#@lap:" :=
        (Chain.hereKey_of_position hposition _).trans hkey
      rw [(hlands e' hstep).1]
      simp only [Chain.countVisit, Phase.chain_resting, hhere, Chain.visitsOf, hvisits,
        Dict.get?_insert]
      rfl
  · cases (Script.markerOf?_eq_none_iff.mpr hmissing).symm.trans hmarker

end Rehearsal

end Cutscene
