import Cutscene.Proofs.FaultyLines
import Cutscene.Proofs.Ledger

/-! Who is told of faulty lines. The chains of a director share one cache, and a text that one of
them has read is read by no other as long as it is kept there. So the chain whose turn it is takes
over the faults of the lines that are read in that turn, and no other chain hears of them. -/

namespace Cutscene

namespace Director

variable {ω : Type} [World ω]

/-- The chains that have a turn in a request, in order, and what is asked of each. -/
def turns (d : Director ω) : Request ω → List (Place × Cutscene.Request ω)
  | .run path owner => [(none, .run path owner)]
  | .runOwned owner path => [(some owner.key, .run path (some owner))]
  | .update elapsed => d.places.map fun q => (q, .update elapsed)
  | .closeDialog => [(d.taker Wait.isDialog, .closeDialog)]
  | .select index => [(d.taker Wait.isSelection, .select index)]
  | .onChain q asked => [(q, asked)]
  | _ => []

/-- Whether a request leaves alone what was told before, and the cache to the chains. -/
def Request.isPlain : Request ω → Bool
  | .takeDiagnostics => false
  | .stop => false
  | .onChain _ asked => asked.isPlain
  | _ => true

/-- Nothing is read, and no chain is told anything. -/
structure Silent (d d' : Director ω) : Prop where
  reads : d'.scene.cache.reads = d.scene.cache.reads
  pending : ∀ q, d'.pending q = d.pending q

/-- Chains that have their turns one after the other. In its turn a chain notes what is read for it,
and all other chains stay as they are. -/
inductive Heard : List (Place × Cutscene.Request ω) → Director ω → Director ω → Prop where
  | none {d : Director ω} : Heard [] d d
  | silent {rest : List (Place × Cutscene.Request ω)} {d d₁ d' : Director ω} (silent : d.Silent d₁)
      (goesOn : Heard rest d₁ d') : Heard rest d d'
  | absent {q : Place} {asked : Cutscene.Request ω} {rest : List (Place × Cutscene.Request ω)}
      {d d' : Director ω} (absent : d.runner? q = .none) (goesOn : Heard rest d d') :
      Heard ((q, asked) :: rest) d d'
  | turn {q : Place} {asked : Cutscene.Request ω} {rest : List (Place × Cutscene.Request ω)}
      {d d₁ d' : Director ω} {r : Runner} {e : Engine ω} {result : Except Fault Unit}
      {log : List Notice} (there : d.runner? q = some r) (standard : r.table = .standard)
      (answers : (Engine.ofRunner r d.scene).answer asked = .ok (e, result))
      (notes : (Engine.ofRunner r d.scene).Notes asked.texts log e)
      (here : d₁.runner? q = some e.toRunner) (scene : d₁.scene = e.scene)
      (elsewhere : ∀ q', q' ≠ q → d₁.runner? q' = d.runner? q') (goesOn : Heard rest d₁ d') :
      Heard ((q, asked) :: rest) d d'

/-- Between requests no faults are left in the cache, and all chains have the standard commands. -/
structure Clean (d : Director ω) : Prop where
  sorted : d.owned.Sorted
  taken : d.scene.cache.faults = []
  standard : ∀ q r, d.runner? q = some r → r.table = .standard

variable {d d₁ d' : Director ω} {q : Place} {r : Request ω} {asked : Cutscene.Request ω}
  {result : Except Fault Unit} {elapsed : Int} {places : List Place}
  {ts ts' : List (Place × Cutscene.Request ω)}

section Bookkeeping

omit [World ω]

theorem clean_ofOptions (options : Options) {scene : Scene ω} (htaken : scene.cache.faults = []) :
    (ofOptions options scene).Clean where
  sorted := List.Pairwise.nil
  taken := htaken
  standard q r hr := by
    cases q with
    | none =>
      obtain rfl := Option.some.inj hr
      simp [ofOptions, Runner.ofOptions]
    | some k => cases hr

theorem clean_hosting (hclean : d.Clean) (owner : Owner) : (d.hosting owner).Clean := by
  refine ⟨hclean.sorted.insert _ _, hclean.taken, fun q r hr => ?_⟩
  by_cases hq : q = some owner.key
  · subst hq
    simp only [hosting, runner?, Dict.get?_insert, if_true] at hr
    obtain rfl := Option.some.inj hr
    cases hthere : d.owned.get? owner.key with
    | none => simp [Runner.ofOptions]
    | some r => exact hclean.standard (some owner.key) r hthere
  · rw [runner?_hosting d owner hq] at hr
    exact hclean.standard q r hr

theorem clean_sweep (hclean : d.Clean) (keeps : Runner → Bool) :
    Director.Clean { d with owned := d.owned.filter (keeps ·.2) } := by
  refine ⟨hclean.sorted.filter _, hclean.taken, fun q r hr => ?_⟩
  cases q with
  | none => exact hclean.standard none r hr
  | some k =>
    have hkept : (d.owned.get? k).filter keeps = some r :=
      (Dict.get?_filter hclean.sorted keeps k).symm.trans hr
    exact hclean.standard (some k) r (Option.filter_eq_some_iff.mp hkept).1

theorem clean_takeDiagnostics (hclean : d.Clean) : d.takeDiagnostics.1.Clean := by
  refine ⟨(hclean.sorted.map cleared).filter _, hclean.taken, fun q r hr => ?_⟩
  cases q with
  | none =>
    obtain rfl := Option.some.inj hr
    exact hclean.standard none d.global rfl
  | some k =>
    have hkept := (get?_takeDiagnostics hclean.sorted k).symm.trans hr
    obtain ⟨r₁, hr₁, rfl⟩ := Option.map_eq_some_iff.mp (Option.filter_eq_some_iff.mp hkept).1
    exact hclean.standard (some k) r₁ hr₁

theorem clean_observe (hclean : d.Clean) (observed : Bool) : (d.observe observed).Clean := by
  have hs : (d.observe observed).owned.Sorted := by
    rw [owned_observe]
    exact hclean.sorted.map fun r => { r with observed }
  refine ⟨hs, hclean.taken, fun q r hr => ?_⟩
  cases q with
  | none =>
    obtain rfl := Option.some.inj hr
    exact hclean.standard none d.global rfl
  | some k =>
    obtain ⟨r₁, hr₁, rfl⟩ := Option.map_eq_some_iff.mp ((get?_observe d observed k).symm.trans hr)
    exact hclean.standard (some k) r₁ hr₁

theorem clean_stop (hclean : d.Clean) : d.stop.Clean := by
  refine ⟨List.Pairwise.nil, rfl, fun q r hr => ?_⟩
  cases q with
  | none =>
    obtain rfl := Option.some.inj hr
    exact hclean.standard none d.global rfl
  | some k => cases hr

end Bookkeeping

theorem Heard.append (h : Heard ts d d₁) (h' : Heard ts' d₁ d') : Heard (ts ++ ts') d d' := by
  induction h with
  | none => exact h'
  | silent silent _ ih => exact .silent silent (ih h')
  | absent absent _ ih => exact .absent absent (ih h')
  | turn there standard answers notes here scene elsewhere _ ih =>
    exact .turn there standard answers notes here scene elsewhere (ih h')

theorem clean_of_onChain (hclean : d.Clean) (h : d.onChain q (·.answer asked) = .ok (d', result)) :
    d'.Clean := by
  have hs : d'.owned.Sorted := sorted_onChain hclean.sorted h
  rcases onChain_cases h with ⟨-, rfl, -⟩ | ⟨r, e, hr, hanswer, rfl⟩
  · exact hclean
  · have hkeeps := Engine.keeps_of_answer hanswer
    refine ⟨hs, ?_, fun q' r' hr' => ?_⟩
    · have htaken : e.scene.cache.faults = [] := hkeeps.taken hclean.taken
      cases q with
      | none => exact htaken
      | some k => exact htaken
    · rw [runner?_restore] at hr'
      split at hr'
      · obtain rfl := Option.some.inj hr'
        exact hkeeps.table.trans (hclean.standard q r hr)
      · exact hclean.standard q' r' hr'

theorem heard_of_onChain (hclean : d.Clean) (hplain : asked.isPlain = true)
    (h : d.onChain q (·.answer asked) = .ok (d', result)) : Heard [(q, asked)] d d' := by
  rcases onChain_cases h with ⟨hnone, rfl, -⟩ | ⟨r, e, hr, hanswer, rfl⟩
  · exact .absent hnone .none
  · obtain ⟨log, hnotes⟩ := Engine.notes_of_answer (e := .ofRunner r d.scene) hclean.taken hplain
      hanswer
    refine .turn hr (hclean.standard q r hr) hanswer hnotes ?_ ?_ (fun q' hq' => ?_) .none
    · rw [runner?_restore, if_pos rfl]
    · cases q with
      | none => rfl
      | some k => rfl
    · rw [runner?_restore, if_neg hq'.symm]

theorem heard_of_foldlM (hclean : d.Clean)
    (h : places.foldlM (updateChain elapsed) d = .ok d') :
    d'.Clean ∧ Heard (places.map fun q => (q, .update elapsed)) d d' := by
  induction places generalizing d with
  | nil =>
    obtain rfl := Except.ok.inj h
    exact ⟨hclean, .none⟩
  | cons q places ih =>
    rw [List.foldlM_cons, bind_eq_ok] at h
    obtain ⟨d₁, hfirst, hrest⟩ := h
    obtain ⟨result, hon⟩ := updateChain_cases hfirst
    obtain ⟨hclean', hheard⟩ := ih (clean_of_onChain hclean hon) hrest
    exact ⟨hclean', (heard_of_onChain hclean rfl hon).append hheard⟩

theorem clean_of_asks (hasks : d.Asks r d₁ q asked) (hclean : d.Clean)
    (h : d.answer r = .ok (d', result)) : d'.Clean := by
  rw [answer_of_asks hasks] at h
  refine clean_of_onChain ?_ h
  cases hasks with
  | runOwned => exact clean_hosting hclean _
  | _ => exact hclean

theorem clean_of_answer (hclean : d.Clean) (h : d.answer r = .ok (d', result)) : d'.Clean := by
  cases r with
  | run path owner => exact clean_of_asks .run hclean h
  | runOwned owner path => exact clean_of_asks .runOwned hclean h
  | update elapsed =>
    obtain ⟨d₁, hupdate, heq⟩ := map_eq_ok.mp h
    obtain ⟨t, hfold, rfl⟩ := update_cases hupdate
    obtain ⟨rfl, -⟩ := Prod.mk.inj heq
    exact clean_sweep (heard_of_foldlM hclean hfold).1 isKept
  | closeDialog => exact clean_of_asks .closeDialog hclean h
  | select index => exact clean_of_asks .select hclean h
  | takeDiagnostics =>
    obtain ⟨rfl, -⟩ := Prod.mk.inj (Except.ok.inj h)
    exact clean_takeDiagnostics hclean
  | observe observed =>
    obtain ⟨rfl, -⟩ := Prod.mk.inj (Except.ok.inj h)
    exact clean_observe hclean observed
  | stop =>
    obtain ⟨rfl, -⟩ := Prod.mk.inj (Except.ok.inj h)
    exact clean_stop hclean
  | onChain q asked => exact clean_of_asks .onChain hclean h

theorem clean_of_serve {rs : List (Request ω)} (hclean : d.Clean) (h : serve rs d = .ok d') :
    d'.Clean := by
  induction rs generalizing d with
  | nil =>
    obtain rfl := Except.ok.inj h
    exact hclean
  | cons r rs ih =>
    obtain ⟨⟨d₁, result⟩, hanswer, hrest⟩ := bind_eq_ok.mp h
    exact ih (clean_of_answer hclean hanswer) hrest

theorem heard_of_answer (hclean : d.Clean) (hplain : r.isPlain = true)
    (h : d.answer r = .ok (d', result)) : Heard (d.turns r) d d' := by
  cases r with
  | run path owner => exact heard_of_onChain hclean rfl h
  | runOwned owner path =>
    have hsilent : d.Silent (d.hosting owner) := ⟨rfl, pending_hosting d owner⟩
    exact .silent hsilent (heard_of_onChain (clean_hosting hclean owner) rfl h)
  | update elapsed =>
    obtain ⟨d₁, hupdate, heq⟩ := map_eq_ok.mp h
    obtain ⟨t, hfold, rfl⟩ := update_cases hupdate
    obtain ⟨rfl, -⟩ := Prod.mk.inj heq
    obtain ⟨hclean', hheard⟩ := heard_of_foldlM hclean hfold
    have hsilent : t.Silent { t with owned := t.owned.filter (isKept ·.2) } :=
      ⟨rfl, pending_sweep hclean'.sorted⟩
    exact List.append_nil (d.turns (.update elapsed)) ▸ hheard.append (.silent hsilent .none)
  | closeDialog => exact heard_of_onChain hclean rfl h
  | select index => exact heard_of_onChain hclean rfl h
  | observe observed =>
    obtain ⟨rfl, -⟩ := Prod.mk.inj (Except.ok.inj h)
    have hsilent : d.Silent (d.observe observed) := ⟨rfl, pending_observe d observed⟩
    exact .silent hsilent .none
  | onChain q asked => exact heard_of_onChain hclean hplain h
  | takeDiagnostics => cases hplain
  | stop => cases hplain

/-- Nothing is read, and what was told a chain is still there or is gone as a whole. -/
structure Forgets (d d' : Director ω) : Prop where
  reads : d'.scene.cache.reads = d.scene.cache.reads
  pending : ∀ q, d'.pending q = d.pending q ∨ d'.pending q = []

omit [World ω] in
theorem forgets_takeDiagnostics (hs : d.owned.Sorted) : d.Forgets d.takeDiagnostics.1 :=
  ⟨rfl, fun q => Or.inr (pending_taken hs q)⟩

omit [World ω] in
theorem forgets_stop (d : Director ω) : d.Forgets d.stop := by
  refine ⟨rfl, fun q => ?_⟩
  cases q with
  | none => exact Or.inl rfl
  | some k => exact Or.inr rfl

end Director

/-- Between requests the cache holds no faults. In a request every chain is told, once and at their
places, of the lines that cannot be read in the texts that were read in its turn, and of no other
lines but those that the host's own commands or its loader complain of. -/
theorem faulty_lines_told_once {ω : Type} [World ω] {options : Options} {scene : Scene ω}
    (htaken : scene.cache.faults = []) :
    (∀ table rs e, Engine.serve rs (.fresh table options scene) = .ok e →
      e.scene.cache.faults = [] ∧
      (∀ r e' result, r.isPlain = true → e.answer r = .ok (e', result) →
        ∃ log, e.Notes r.texts log e') ∧
      ∀ e' result, e.answer .takeDiagnostics = .ok (e', result) → e'.scene = e.scene) ∧
    (∀ rs d, Director.serve rs (.ofOptions options scene) = .ok d →
      d.scene.cache.faults = [] ∧
      (∀ r d' result, r.isPlain = true → d.answer r = .ok (d', result) →
        Director.Heard (d.turns r) d d') ∧
      d.Forgets d.takeDiagnostics.1 ∧ d.Forgets d.stop) ∧
    (∀ file source, (Script.parse file source).faults = Script.faultyLines file source ∧
      (∀ f ∈ Script.faultyLines file source, f.cause.isOfLine = true) ∧
      ∀ i, (Script.faultyLines file source).filter (·.location = some ⟨file, i + 1⟩) =
        ((Script.refusal? source i).map fun cause => ⟨cause, some ⟨file, i + 1⟩⟩).toList) ∧
    ∀ cause, CommandTable.standard.States cause → cause.isOfLine = false := by
  refine ⟨fun table rs e hserve => ?_, fun rs d hserve => ?_, fun file source => ?_,
    fun cause => ?_⟩
  · have htaken' : e.scene.cache.faults = [] := Engine.taken_of_serve htaken hserve
    refine ⟨htaken', fun r e' result hplain => Engine.notes_of_answer htaken' hplain, ?_⟩
    rintro e' result hanswer
    obtain ⟨rfl, -⟩ := Prod.mk.inj (Except.ok.inj hanswer)
    rfl
  · have hclean := Director.clean_of_serve (Director.clean_ofOptions options htaken) hserve
    exact ⟨hclean.taken, fun r d' result => Director.heard_of_answer hclean,
      Director.forgets_takeDiagnostics hclean.sorted, Director.forgets_stop d⟩
  · exact ⟨Script.parse_faults file source, fun f => Script.isOfLine_of_mem,
      Script.faultyLines_at file source⟩
  · exact CommandTable.standard_states

namespace Rehearsal

open Director

/-- The baker has the recipe read, and then it is run from the cache. -/
def baking : Except (Crash Recording) (Director Recording × Director.Answer Recording) := do
  let d ← serve [.runOwned baker "bread"] (ofOptions {} bakery)
  let a ← d.answer (.run "bread" none)
  return (d, a)

theorem first_reader_told : ∃ d d' : Director Recording,
    serve [.runOwned baker "bread"] (ofOptions {} bakery) = .ok d ∧
    d.scene.cache.faults = [] ∧
    (∃ result, d.answer (.run "bread" none) = .ok (d', result)) ∧
    Heard [(none, .run "bread" none)] d d' ∧
    (d'.pending (some baker.key)).map (·.location) = [some ⟨"script/common/bread", 1⟩] ∧
    (d'.pending none).length = 0 := by
  obtain ⟨⟨d, d', result⟩, hrun, hglance⟩ := exists_ok (r := baking)
    (f := fun (_, d', _) =>
      ((d'.pending (some baker.key)).map (·.location), (d'.pending none).length))
    (b := ([some ⟨"script/common/bread", 1⟩], 0)) (by decide +kernel)
  obtain ⟨d₁, hserve, hrun⟩ := bind_eq_ok.mp hrun
  obtain ⟨a, hanswer, hrun⟩ := bind_eq_ok.mp hrun
  cases hrun
  obtain ⟨hbaker, hglobal⟩ := Prod.mk.inj hglance
  obtain ⟨-, hdirector, -⟩ := @faulty_lines_told_once Recording _ {} bakery rfl
  obtain ⟨htaken, hheard, -⟩ := hdirector _ d hserve
  exact ⟨d, d', hserve, htaken, ⟨result, hanswer⟩, hheard _ d' result rfl hanswer, hbaker, hglobal⟩

end Rehearsal

end Cutscene
