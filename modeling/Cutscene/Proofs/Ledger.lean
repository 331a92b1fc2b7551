import Cutscene.Proofs.Directing
import Cutscene.Proofs.Reports

/-! The accounts of a director. Whatever a chain reports is handed out once, to whoever takes the
diagnostics next, or is still pending in a chain that the director holds: a chain is dropped only
when it has ended and has nothing left to report. -/

namespace Cutscene

namespace Director

/-- What the chains have reported, and what was handed out, each with the place of its chain. -/
structure Journal where
  told : List (Place × Fault) := []
  handed : List (Place × Fault) := []

def ofPlace (q : Place) (entries : List (Place × Fault)) : List Fault :=
  (entries.filter (·.1 = q)).map Prod.snd

variable {ω : Type}

def pending (d : Director ω) (q : Place) : List Fault :=
  (d.runner? q).elim [] (·.diagnostics.toList)

/-- Every fault that a chain reported was handed out or is pending, in order and once. -/
def Balanced (d : Director ω) (j : Journal) : Prop :=
  ∀ q, ofPlace q j.told = ofPlace q j.handed ++ d.pending q

def takings (d : Director ω) : List (Place × Fault) :=
  d.global.diagnostics.toList.map (none, ·) ++
    d.owned.flatMap fun p => p.2.diagnostics.toList.map (some p.1, ·)

section World

variable [World ω]

/-- A request to the chain at a place, with what it adds to the journal. -/
inductive Enters (d : Director ω) (j : Journal) (q : Place) :
    Cutscene.Request ω → Director ω → Journal → Prop where
  | absent {asked : Cutscene.Request ω} (none : d.runner? q = none) : Enters d j q asked d j
  | told {asked : Cutscene.Request ω} {r : Runner} {e : Engine ω} {result : Except Fault Unit}
      {faults : List Fault} (there : d.runner? q = some r) (keeps : asked ≠ .takeDiagnostics)
      (answers : (Engine.ofRunner r d.scene).answer asked = .ok (e, result))
      (adds : r.diagnostics.toList ++ faults = e.diagnostics.toList) :
      Enters d j q asked (d.restore q e) { j with told := j.told ++ faults.map (q, ·) }
  | handed {r : Runner} (there : d.runner? q = some r) :
      Enters d j q .takeDiagnostics (d.restore q (.ofRunner (cleared r) d.scene))
        { j with handed := j.handed ++ r.diagnostics.toList.map (q, ·) }

/-- A frame passes on the chains at these places, one after the other. -/
inductive Ticks (elapsed : Int) :
    List Place → Director ω → Journal → Director ω → Journal → Prop where
  | nil {d : Director ω} {j : Journal} : Ticks elapsed [] d j d j
  | cons {q : Place} {places : List Place} {d d₁ d' : Director ω} {j j₁ j' : Journal}
      (first : d.Enters j q (.update elapsed) d₁ j₁) (rest : Ticks elapsed places d₁ j₁ d' j') :
      Ticks elapsed (q :: places) d j d' j'

/-- A request to the director, with what it adds to the journal. -/
inductive Logs (d : Director ω) (j : Journal) : Request ω → Director ω → Journal → Prop where
  | asks {r : Request ω} {d₁ d' : Director ω} {q : Place} {asked : Cutscene.Request ω}
      {j' : Journal} (asks : d.Asks r d₁ q asked) (enters : d₁.Enters j q asked d' j') :
      Logs d j r d' j'
  | update {elapsed : Int} {t : Director ω} {j' : Journal}
      (ticks : Ticks elapsed d.places d j t j') :
      Logs d j (.update elapsed) { t with owned := t.owned.filter (isKept ·.2) } j'
  | takeDiagnostics :
      Logs d j .takeDiagnostics d.takeDiagnostics.1 { j with handed := j.handed ++ d.takings }
  | observe {observed : Bool} : Logs d j (.observe observed) (d.observe observed) j

/-- Requests that are answered one after the other, with the journal of them. -/
inductive History : List (Request ω) → Director ω → Journal → Director ω → Journal → Prop where
  | nil {d : Director ω} {j : Journal} : History [] d j d j
  | cons {r : Request ω} {rs : List (Request ω)} {d d₁ d' : Director ω} {j j₁ j' : Journal}
      {result : Except Fault Unit} (answers : d.answer r = .ok (d₁, result))
      (logs : d.Logs j r d₁ j₁) (rest : History rs d₁ j₁ d' j') : History (r :: rs) d j d' j'

end World

variable {d d₁ d' t : Director ω} {j j' : Journal} {q q' : Place} {r : Runner} {faults : List Fault}

theorem ofPlace_append (q : Place) (entries entries' : List (Place × Fault)) :
    ofPlace q (entries ++ entries') = ofPlace q entries ++ ofPlace q entries' := by
  simp [ofPlace]

theorem ofPlace_tagged (q q' : Place) (faults : List Fault) :
    ofPlace q' (faults.map (q, ·)) = if q = q' then faults else [] := by
  by_cases hq : q = q'
  · simp [ofPlace, hq, List.filter_map, Function.comp_def]
  · simp [ofPlace, hq, List.filter_map, Function.comp_def]

theorem pending_restore (d : Director ω) (q q' : Place) (e : Engine ω) :
    (d.restore q e).pending q' = if q = q' then e.diagnostics.toList else d.pending q' := by
  unfold pending
  rw [runner?_restore]
  by_cases hq : q = q'
  · simp [hq]
  · simp [hq]

theorem pending_of_there (h : d.runner? q = some r) : d.pending q = r.diagnostics.toList := by
  simp [pending, h]

theorem isKept_iff : isKept r = true ↔ r.chain.isRunning = true ∨ r.diagnostics.toList ≠ [] := by
  simp [isKept]

theorem pending_sweep (hs : t.owned.Sorted) (q : Place) :
    Director.pending { t with owned := t.owned.filter (isKept ·.2) } q = t.pending q := by
  cases q with
  | none => rfl
  | some k =>
    simp only [pending, runner?, Dict.get?_filter hs]
    cases hr : t.owned.get? k with
    | none => rfl
    | some r =>
      by_cases hkept : isKept r = true
      · simp [Option.filter, hkept]
      · have hnone : r.diagnostics.toList = [] :=
          Decidable.byContradiction fun hsome => hkept (isKept_iff.mpr (Or.inr hsome))
        simp [Option.filter, hkept, hnone]

theorem get?_takeDiagnostics (hs : d.owned.Sorted) (k : String) :
    d.takeDiagnostics.1.owned.get? k =
      ((d.owned.get? k).map cleared).filter (·.chain.isRunning) := by
  rw [owned_takeDiagnostics, ← Dict.get?_map]
  exact Dict.get?_filter (hs.map cleared) (·.chain.isRunning) k

theorem pending_taken (hs : d.owned.Sorted) (q : Place) : d.takeDiagnostics.1.pending q = [] := by
  cases q with
  | none => rfl
  | some k =>
    simp only [pending, runner?, get?_takeDiagnostics hs]
    cases d.owned.get? k with
    | none => rfl
    | some r =>
      by_cases hrun : (cleared r).chain.isRunning = true
      · simp only [Option.map_some, Option.filter, hrun, if_true]
        rfl
      · simp [Option.filter, hrun]

theorem ofPlace_owned {owned : Dict String Runner} (hs : owned.Sorted) (k : String) :
    ofPlace (some k) (owned.flatMap fun p => p.2.diagnostics.toList.map (some p.1, ·)) =
      (owned.get? k).elim [] (·.diagnostics.toList) := by
  induction owned with
  | nil => rfl
  | cons p owned ih =>
    obtain ⟨hfirst, hrest⟩ := List.pairwise_cons.mp hs
    rw [List.flatMap_cons, ofPlace_append, ofPlace_tagged, ih hrest]
    by_cases hk : p.1 = k
    · -- no other chain stands under the key
      have hnone : Dict.get? owned k = none := by
        cases hr : Dict.get? owned k with
        | none => rfl
        | some r =>
          have hlt : p.1 < k := hfirst _ (Dict.mem_of_get? hr)
          exact absurd hlt (hk ▸ String.lt_irrefl p.1)
      simp [Dict.get?, hk, hnone]
    · simp [Dict.get?, hk]

theorem ofPlace_takings (hs : d.owned.Sorted) (q : Place) : ofPlace q d.takings = d.pending q := by
  rw [takings, ofPlace_append, ofPlace_tagged]
  cases q with
  | none =>
    have hnone : ofPlace none (d.owned.flatMap fun p =>
        p.2.diagnostics.toList.map (some p.1, ·)) = [] := by
      rw [ofPlace, List.map_eq_nil_iff, List.filter_eq_nil_iff]
      intro entry hentry
      obtain ⟨p, -, hp⟩ := List.mem_flatMap.mp hentry
      obtain ⟨f, -, rfl⟩ := List.mem_map.mp hp
      simp
    simp [hnone, pending, runner?]
  | some k =>
    rw [ofPlace_owned hs]
    simp [pending, runner?]

theorem takings_returned (d : Director ω) : d.takings.map Prod.snd = d.takeDiagnostics.2 := by
  simp [takings, takeDiagnostics, chains, List.map_flatMap, List.flatMap_map, Function.comp_def]

theorem get?_observe (d : Director ω) (observed : Bool) (k : String) :
    (d.observe observed).owned.get? k = (d.owned.get? k).map fun r => { r with observed } := by
  rw [owned_observe]
  exact Dict.get?_map d.owned (fun r : Runner => ({ r with observed } : Runner)) k

theorem pending_observe (d : Director ω) (observed : Bool) (q : Place) :
    (d.observe observed).pending q = d.pending q := by
  cases q with
  | none => rfl
  | some k =>
    simp only [pending, runner?, get?_observe]
    cases d.owned.get? k with
    | none => rfl
    | some r => rfl

theorem pending_hosting (d : Director ω) (owner : Owner) (q : Place) :
    (d.hosting owner).pending q = d.pending q := by
  by_cases hq : q = some owner.key
  · subst hq
    simp only [pending, runner?, hosting, Dict.get?_insert]
    cases d.owned.get? owner.key with
    | none => rfl
    | some r => rfl
  · simp only [pending, runner?_hosting d owner hq]

variable [World ω] {asked : Cutscene.Request ω} {r' : Request ω} {elapsed : Int}
  {places : List Place}

theorem Enters.balanced (h : d.Enters j q asked d' j') (hj : d.Balanced j) : d'.Balanced j' := by
  intro q'
  have hbefore := hj q'
  cases h with
  | absent none => exact hbefore
  | @told asked r e result faults there keeps answers adds =>
    rw [ofPlace_append, ofPlace_tagged, pending_restore, hbefore]
    by_cases hq : q = q'
    · subst hq
      simp [pending_of_there there, ← adds]
    · simp [hq]
  | @handed r there =>
    rw [ofPlace_append, ofPlace_tagged, pending_restore, hbefore]
    by_cases hq : q = q'
    · subst hq
      simp [pending_of_there there, cleared, Engine.ofRunner]
    · simp [hq]

theorem Enters.sorted (h : d.Enters j q asked d' j') (hs : d.owned.Sorted) : d'.owned.Sorted := by
  cases h with
  | absent none => exact hs
  | told there keeps answers adds => exact sorted_restore hs q _
  | handed there => exact sorted_restore hs q _

theorem Ticks.balanced (h : Ticks elapsed places d j d' j') (hs : d.owned.Sorted)
    (hj : d.Balanced j) : d'.owned.Sorted ∧ d'.Balanced j' := by
  induction h with
  | nil => exact ⟨hs, hj⟩
  | cons first rest ih => exact ih (first.sorted hs) (first.balanced hj)

theorem Logs.balanced (h : d.Logs j r' d' j') (hs : d.owned.Sorted) (hj : d.Balanced j) :
    d'.Balanced j' := by
  cases h with
  | asks asks enters =>
    refine enters.balanced ?_
    cases asks with
    | runOwned =>
      intro q
      rw [pending_hosting]
      exact hj q
    | _ => exact hj
  | update ticks =>
    obtain ⟨hs', hj'⟩ := ticks.balanced hs hj
    intro q
    rw [pending_sweep hs']
    exact hj' q
  | takeDiagnostics =>
    intro q
    rw [ofPlace_append, ofPlace_takings hs, pending_taken hs, List.append_nil]
    exact hj q
  | observe =>
    intro q
    rw [pending_observe]
    exact hj q

theorem History.balanced {rs : List (Request ω)} (h : History rs d j d' j')
    (hs : d.owned.Sorted) (hj : d.Balanced j) : d'.Balanced j' := by
  induction h with
  | nil => exact hj
  | cons answers logs rest ih => exact ih (sorted_of_answer hs answers) (logs.balanced hs hj)

theorem enters_of_onChain {result : Except Fault Unit}
    (h : d.onChain q (·.answer asked) = .ok (d', result)) (j : Journal) :
    ∃ j', d.Enters j q asked d' j' := by
  rcases onChain_cases h with ⟨hnone, rfl, -⟩ | ⟨r, e, hr, hanswer, rfl⟩
  · exact ⟨j, .absent hnone⟩
  · by_cases htakes : asked = .takeDiagnostics
    · subst htakes
      have he : Engine.ofRunner (cleared r) d.scene = e :=
        congrArg Prod.fst (Except.ok.inj hanswer)
      rw [← he]
      exact ⟨_, .handed hr⟩
    · obtain ⟨faults, hadds⟩ := Engine.adds_of_answer hanswer htakes
      exact ⟨_, .told hr htakes hanswer hadds⟩

theorem updateChain_cases (h : updateChain elapsed d q = .ok d') :
    ∃ result, d.onChain q (·.answer (.update elapsed)) = .ok (d', result) := by
  obtain ⟨⟨d₁, result⟩, hon, rfl⟩ := map_eq_ok.mp h
  exact ⟨result, hon⟩

theorem ticks_of_foldlM (h : places.foldlM (updateChain elapsed) d = .ok d') (j : Journal) :
    ∃ j', Ticks elapsed places d j d' j' := by
  induction places generalizing d j with
  | nil =>
    obtain rfl := Except.ok.inj h
    exact ⟨j, .nil⟩
  | cons q places ih =>
    rw [List.foldlM_cons, bind_eq_ok] at h
    obtain ⟨d₁, hfirst, hrest⟩ := h
    obtain ⟨result, hon⟩ := updateChain_cases hfirst
    obtain ⟨j₁, henters⟩ := enters_of_onChain hon j
    obtain ⟨j', hticks⟩ := ih hrest j₁
    exact ⟨j', .cons henters hticks⟩

theorem logs_of_asks {result : Except Fault Unit} (hasks : d.Asks r' d₁ q asked)
    (h : d.answer r' = .ok (d', result)) (j : Journal) : ∃ j', d.Logs j r' d' j' := by
  rw [answer_of_asks hasks] at h
  obtain ⟨j', henters⟩ := enters_of_onChain h j
  exact ⟨j', .asks hasks henters⟩

theorem logs_of_answer {result : Except Fault Unit} (hstop : r' ≠ .stop)
    (h : d.answer r' = .ok (d', result)) (j : Journal) : ∃ j', d.Logs j r' d' j' := by
  cases r' with
  | run path owner => exact logs_of_asks .run h j
  | runOwned owner path => exact logs_of_asks .runOwned h j
  | update elapsed =>
    rw [answer, map_eq_ok] at h
    obtain ⟨d₁, hupdate, heq⟩ := h
    obtain ⟨t, hfold, hswept⟩ := update_cases hupdate
    obtain ⟨rfl, -⟩ := Prod.mk.inj heq
    obtain ⟨j', hticks⟩ := ticks_of_foldlM hfold j
    exact ⟨j', hswept ▸ .update hticks⟩
  | closeDialog => exact logs_of_asks .closeDialog h j
  | select index => exact logs_of_asks .select h j
  | takeDiagnostics =>
    rw [answer, Except.ok.injEq, Prod.mk.injEq] at h
    rw [← h.1]
    exact ⟨_, .takeDiagnostics⟩
  | observe observed =>
    rw [answer, Except.ok.injEq, Prod.mk.injEq] at h
    rw [← h.1]
    exact ⟨j, .observe⟩
  | stop => exact absurd rfl hstop
  | onChain q asked => exact logs_of_asks .onChain h j

theorem history_of_serve {rs : List (Request ω)} (hstop : ∀ r ∈ rs, r ≠ .stop)
    (h : serve rs d = .ok d') (j : Journal) : ∃ j', History rs d j d' j' := by
  induction rs generalizing d j with
  | nil =>
    obtain rfl := Except.ok.inj h
    exact ⟨j, .nil⟩
  | cons r rs ih =>
    obtain ⟨⟨d₁, result⟩, hanswer, hrest⟩ := bind_eq_ok.mp h
    obtain ⟨j₁, hlogs⟩ := logs_of_answer (hstop r List.mem_cons_self) hanswer j
    obtain ⟨j', hhistory⟩ := ih (fun q hq => hstop q (List.mem_cons_of_mem _ hq)) hrest j₁
    exact ⟨j', .cons hanswer hlogs hhistory⟩

/-- A chain gets one frame if its place is among the places, and else none. -/
theorem ticked_of_foldlM (hnodup : places.Nodup)
    (h : places.foldlM (updateChain elapsed) d = .ok d') (hr : d.runner? q = some r) :
    (q ∉ places → d'.runner? q = some r) ∧
      (q ∈ places → ∃ (scene : Scene ω) (e : Engine ω),
        (Engine.ofRunner r scene).update elapsed = .ok e ∧ d'.runner? q = some e.toRunner) := by
  induction places generalizing d r with
  | nil =>
    obtain rfl := Except.ok.inj h
    exact ⟨fun _ => hr, nofun⟩
  | cons p places ih =>
    obtain ⟨hp, hothers⟩ := List.nodup_cons.mp hnodup
    rw [List.foldlM_cons, bind_eq_ok] at h
    obtain ⟨d₁, hfirst, hrest⟩ := h
    obtain ⟨result, hon⟩ := updateChain_cases hfirst
    by_cases hq : q = p
    · subst hq
      refine ⟨fun hnot => absurd List.mem_cons_self hnot, fun _ => ?_⟩
      rcases onChain_cases hon with ⟨hnone, -, -⟩ | ⟨r₁, e, hr₁, hanswer, rfl⟩
      · rw [hnone] at hr
        cases hr
      · obtain rfl := Option.some.inj (hr.symm.trans hr₁)
        obtain ⟨e', hupdate, heq⟩ := map_eq_ok.mp hanswer
        obtain ⟨rfl, -⟩ := Prod.mk.inj heq
        have hafter : (d.restore q e').runner? q = some e'.toRunner := by
          rw [runner?_restore, if_pos rfl]
        exact ⟨_, e', hupdate, (ih hothers hrest hafter).1 hp⟩
    · have hkept : d₁.runner? q = some r := (runner?_onChain hon hq).trans hr
      obtain ⟨hout, hin⟩ := ih hothers hrest hkept
      refine ⟨fun hnot => hout fun hmem => hnot (List.mem_cons_of_mem _ hmem), fun hmem => ?_⟩
      exact hin ((List.mem_cons.mp hmem).resolve_left hq)

/-- How a frame ends for owned chains: each of them is updated, and is dropped just if it does not
run then and has nothing to report. -/
structure Sweeps (d : Director ω) (elapsed : Int) (d' : Director ω) : Prop where
  updated : ∀ k r, d.owned.get? k = some r → ∃ (scene : Scene ω) (e : Engine ω),
    (Engine.ofRunner r scene).update elapsed = .ok e ∧
      d'.owned.get? k = if isKept e.toRunner then some e.toRunner else none
  held : ∀ k r, d'.owned.get? k = some r → r.chain.isRunning = true ∨ r.diagnostics.toList ≠ []
  reporting : ∀ k r, d.owned.get? k = some r → r.diagnostics.toList ≠ [] →
    ∃ r', d'.owned.get? k = some r' ∧ r.diagnostics.toList <+: r'.diagnostics.toList

theorem sweeps_of_update (hs : d.owned.Sorted) (h : d.update elapsed = .ok d') :
    d.Sweeps elapsed d' := by
  obtain ⟨t, hfold, rfl⟩ := update_cases h
  have hst : t.owned.Sorted := sorted_updateChain hs hfold
  have hswept : ∀ k, Dict.get? (t.owned.filter (isKept ·.2)) k = (t.owned.get? k).filter isKept :=
    Dict.get?_filter hst isKept
  have hupdated : ∀ k r, d.owned.get? k = some r → ∃ (scene : Scene ω) (e : Engine ω),
      (Engine.ofRunner r scene).update elapsed = .ok e ∧
        Dict.get? (t.owned.filter (isKept ·.2)) k =
          if isKept e.toRunner then some e.toRunner else none := by
    intro k r hr
    have hplace : (some k : Place) ∈ d.places := mem_places.mpr (by simp [runner?, hr])
    obtain ⟨scene, e, hupdate, hafter⟩ :=
      (ticked_of_foldlM (q := some k) (nodup_places hs) hfold hr).2 hplace
    have hthere : t.owned.get? k = some e.toRunner := hafter
    exact ⟨scene, e, hupdate, by rw [hswept, hthere]; rfl⟩
  refine ⟨hupdated, fun k r hr => ?_, fun k r hr hpending => ?_⟩
  · have hr' : (t.owned.get? k).filter isKept = some r := (hswept k).symm.trans hr
    exact isKept_iff.mp (Option.filter_eq_some_iff.mp hr').2
  · obtain ⟨scene, e, hupdate, hafter⟩ := hupdated k r hr
    have hanswer : (Engine.ofRunner r scene).answer (.update elapsed) = .ok (e, .ok ()) := by
      rw [Engine.answer, hupdate]
      rfl
    have hadds : r.diagnostics.toList <+: e.diagnostics.toList :=
      Engine.adds_of_answer hanswer (by simp)
    have hkept : isKept e.toRunner = true := by
      refine isKept_iff.mpr (Or.inr fun hnone => hpending ?_)
      exact List.prefix_nil.mp (hnone ▸ hadds)
    exact ⟨e.toRunner, by rw [hafter, if_pos hkept], hadds⟩

/-- The diagnostics are taken from every chain, and of the owned chains those that run remain. -/
structure HandsOut (d : Director ω) : Prop where
  returned : d.takings.map Prod.snd = d.takeDiagnostics.2
  running : ∀ k r, d.owned.get? k = some r → r.chain.isRunning = true →
    d.takeDiagnostics.1.owned.get? k = some (cleared r)
  held : ∀ k r, d.takeDiagnostics.1.owned.get? k = some r → r.chain.isRunning = true

omit [World ω] in
theorem handsOut (hs : d.owned.Sorted) : d.HandsOut := by
  refine ⟨takings_returned d, fun k r hr hrun => ?_, fun k r hr => ?_⟩
  · have hrun' : (cleared r).chain.isRunning = true := hrun
    simp [get?_takeDiagnostics hs, hr, Option.filter, hrun']
  · rw [get?_takeDiagnostics hs] at hr
    exact (Option.filter_eq_some_iff.mp hr).2

/-- As long as a director is not stopped, the faults that a chain reports are, in order and each
once, those that were handed out and those that are pending; no chain is dropped that runs or, in a
frame, has something to report. -/
theorem diagnostics_balance {options : Options} {scene : Scene ω} {rs : List (Request ω)}
    (hserve : serve rs (ofOptions options scene) = .ok d) (hstop : ∀ r ∈ rs, r ≠ .stop) :
    ((∃ j, History rs (ofOptions options scene) {} d j) ∧
      ∀ j, History rs (ofOptions options scene) {} d j → d.Balanced j) ∧
    (∀ elapsed d', d.update elapsed = .ok d' → d.Sweeps elapsed d') ∧ d.HandsOut := by
  have hnew : (ofOptions options scene).owned.Sorted := List.Pairwise.nil
  have hs : d.owned.Sorted := sorted_of_serve hnew hserve
  have hempty : (ofOptions options scene).Balanced {} := by
    intro q
    cases q with
    | none => rfl
    | some k => rfl
  refine ⟨⟨history_of_serve hstop hserve {}, fun j h => h.balanced hnew hempty⟩, ?_, handsOut hs⟩
  intro elapsed d' hupdate
  exact sweeps_of_update hs hupdate

end Director

namespace Rehearsal

open Director

def baker : Owner := ⟨.npc, "Baker"⟩

def bakery : Scene Recording where
  world := {}
  cache := { read := fun _ => .ok "Knead(" }

/-- The baker's chain is dropped when its fault is taken, and made again with another one. -/
def workday : List (Director.Request Recording) :=
  [.runOwned baker "bread", .takeDiagnostics, .runOwned baker "cake", .update 5]

theorem workday_balances : ∃ (d : Director Recording) (j : Journal),
    serve workday (ofOptions {} bakery) = .ok d ∧ History workday (ofOptions {} bakery) {} d j ∧
    d.Balanced j ∧ d.isAnyRunning = false ∧ (d.pending (some baker.key)).length = 1 := by
  obtain ⟨d, hserve, hglance⟩ := exists_ok (r := serve workday (ofOptions {} bakery))
    (f := fun d => (d.isAnyRunning, (d.pending (some baker.key)).length)) (b := (false, 1))
    (by decide +kernel)
  obtain ⟨hended, hpending⟩ := Prod.mk.inj hglance
  have hstop : ∀ r ∈ workday, r ≠ .stop := by
    intro r hr
    simp only [workday, List.mem_cons, List.not_mem_nil, or_false] at hr
    rcases hr with rfl | rfl | rfl | rfl
    · nofun
    · nofun
    · nofun
    · nofun
  obtain ⟨⟨⟨j, hhistory⟩, hbalanced⟩, -, -⟩ := diagnostics_balance hserve hstop
  exact ⟨d, j, hserve, hhistory, hbalanced j hhistory, hended, hpending⟩

end Rehearsal

end Cutscene
