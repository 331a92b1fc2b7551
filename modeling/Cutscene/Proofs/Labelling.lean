import Cutscene.Proofs.Passages
import Cutscene.Proofs.Rereading
import Cutscene.Proofs.Tracing

/-! The key of a label. A marker stands under the normal form of its literal. Whoever runs over it,
jumps to it or asks for its count comes to the same key, in whatever way each of them spells the
label. What is read from a text holds no other markers, and so no run over such scripts counts
anything under another key. -/

namespace Cutscene

/-- Every marker stands under the normal form of its literal. -/
def Script.Labelled (s : Script) : Prop :=
  ∀ i ∈ s.instructions, i.isMarker = true → ∃ literal line, i = .ofLabel literal line

theorem Script.parse_labelled (file source : String) : (parse file source).script.Labelled := by
  intro i hi hmarker
  rw [parse_instructions] at hi
  obtain ⟨⟨line, number⟩, -, hread⟩ := List.mem_filterMap.mp hi
  cases i with
  | call c => cases hmarker
  | marker name literal n =>
    obtain ⟨s, -, -, -, rfl⟩ := readLine_marker (eq_ok_of_toOption hread)
    exact ⟨literal, n, rfl⟩

namespace Cache

variable {c : Cache}

/-- All scripts that the cache holds are labelled. -/
def Labelled (c : Cache) : Prop :=
  ∀ key entry, c.scripts.get? key = some entry → entry.script.Labelled

theorem Labelled.put (h : c.Labelled) (key : String) {script : Script} (hscript : script.Labelled) :
    (c.put key script).1.Labelled := by
  intro key' entry hentry
  simp only [Cache.put, Dict.get?_insert] at hentry
  split at hentry
  · obtain rfl := Option.some.inj hentry
    exact hscript
  · exact h key' entry hentry

theorem Labelled.load (h : c.Labelled) (path : String) :
    (c.load path).1.Labelled ∧ ∀ entry, (c.load path).2 = .ok entry → entry.script.Labelled := by
  unfold Cache.load
  dsimp only
  split
  · next entry hentry => exact ⟨h, fun _ hok => Except.ok.inj hok ▸ h _ entry hentry⟩
  · split
    · exact ⟨h, nofun⟩
    · next source hread =>
      have hscript := Script.parse_labelled (ScriptPath.normalize path) source
      exact ⟨Labelled.put (c := { c with }) h _ hscript, fun _ hok => Except.ok.inj hok ▸ hscript⟩

theorem Labelled.loadFirst (h : c.Labelled) (paths : List String) :
    (c.loadFirst paths).1.Labelled ∧
      ∀ entry, (c.loadFirst paths).2 = .ok entry → entry.script.Labelled :=
  loadFirst_induct (P := Labelled) (Q := fun found => ∀ entry, found = .ok entry →
    entry.script.Labelled) h paths (fun _ path h => h.load path) fun _ => nofun

end Cache

namespace Chain

variable {c c' : Chain} {p : Position} {label : String}

/-- Every open script is labelled, and what is counted are passages of labels in normal form. -/
structure Labelled (c : Chain) : Prop where
  scripts : ∀ script ∈ c.scripts, script.Labelled
  counts : ∀ key n, c.visits.get? key = some n →
    ∃ file label, key = visitKey file (Label.normalize label)

theorem labelled_empty : Labelled {} := ⟨by simp [Chain.scripts], by simp⟩

theorem Labelled.of_scripts (h : c.Labelled) (hscripts : c'.scripts ⊆ c.scripts)
    (hvisits : c'.visits = c.visits) : c'.Labelled :=
  ⟨fun script hscript => h.scripts script (hscripts hscript), hvisits ▸ h.counts⟩

theorem Labelled.countVisit (h : c.Labelled) (label : String) :
    (c.countVisit (Label.normalize label)).Labelled := by
  refine ⟨h.scripts, fun key n hkey => ?_⟩
  simp only [Chain.countVisit, Dict.get?_insert] at hkey
  split at hkey
  · next hsame => exact ⟨_, label, hsame.symm⟩
  · exact h.counts key n hkey

theorem Labelled.enter (h : c.Labelled) {script : Script} (hscript : script.Labelled) :
    (c.enter script).Labelled := by
  refine ⟨fun s hs => ?_, h.counts⟩
  rw [scripts_enter] at hs
  rcases List.mem_cons.mp hs with rfl | hs
  · exact hscript
  · exact h.scripts s hs

/-- From one chain to the other one more passage of a label is counted in a file, which shows under
every spelling of the label, and nothing else is counted. -/
structure CountsOn (c c' : Chain) (file label : String) : Prop where
  more : ∀ spelt, Label.normalize spelt = Label.normalize label →
    (c'.visitCount file spelt).toNat = (c.visitCount file spelt).toNat + 1
  others : ∀ key, key ≠ visitKey file (Label.normalize label) →
    c'.visits.get? key = c.visits.get? key

theorem canCount_iff (hp : c.position = some p) : c.canCount (Label.normalize label) = true ↔
    (c.visitCount p.script.file label).toNat + 1 < UInt32.size := by
  rw [canCount, hereKey_of_position hp, decide_eq_true_eq]
  rfl

theorem countsOn_countVisit (hp : c.position = some p)
    (hroom : (c.visitCount p.script.file label).toNat + 1 < UInt32.size)
    (hvisits : c'.visits = (c.countVisit (Label.normalize label)).visits) :
    c.CountsOn c' p.script.file label := by
  have hinsert : c'.visits = c.visits.insert (visitKey p.script.file (Label.normalize label))
      (c.visitCount p.script.file label + 1) := by
    rw [hvisits, countVisit, hereKey_of_position hp]
    rfl
  refine ⟨fun spelt hspelt => ?_, fun key hkey => ?_⟩
  · have hcount : c'.visitCount p.script.file spelt = c.visitCount p.script.file label + 1 := by
      rw [visitCount, visitsOf, hinsert, hspelt, Dict.get?_insert, if_pos rfl, Option.getD_some]
    have hsame : c.visitCount p.script.file spelt = c.visitCount p.script.file label := by
      rw [visitCount, hspelt, visitCount]
    rw [hcount, hsame, UInt32.toNat_add]
    exact Nat.mod_eq_of_lt hroom
  · rw [hinsert, Dict.get?_insert, if_neg (Ne.symm hkey)]

end Chain

namespace Engine

variable {ω : Type} {e e' : Engine ω} {p : Position} {script : Script}

/-- An engine all of whose scripts are labelled. -/
structure Labelled (e : Engine ω) : Prop where
  cache : e.scene.cache.Labelled
  chain : e.chain.Labelled

theorem Labelled.of_eq (h : e.Labelled)
    (hcache : e'.scene.cache.scripts = e.scene.cache.scripts)
    (hscripts : e'.chain.scripts ⊆ e.chain.scripts)
    (hvisits : e'.chain.visits = e.chain.visits) : e'.Labelled :=
  ⟨fun key entry hentry => h.cache key entry (hcache ▸ hentry), h.chain.of_scripts hscripts hvisits⟩

theorem Labelled.withCache (h : e.Labelled) {c : Cache} (hc : c.Labelled) :
    (e.withCache c).Labelled :=
  ⟨hc, h.chain⟩

theorem Labelled.reportLines (h : e.Labelled) : e.reportLines.Labelled := by
  rw [reportLines_eq]
  exact h.of_eq rfl (List.Subset.refl _) rfl

theorem Labelled.announce (h : e.Labelled) : e.announce.Labelled := by
  obtain ⟨trace, heq⟩ := announce_eq e
  rw [heq]
  exact h.of_eq rfl (List.Subset.refl _) rfl

theorem Labelled.advance (h : e.Labelled) : e.advance.Labelled :=
  h.of_eq rfl (List.Subset.refl _) rfl

theorem Labelled.follow (h : e.Labelled) (file : String) (call : Call)
    (course : Except Fault Course) : (e.follow file call course).Labelled := by
  have hlines := h.reportLines
  have hskips : ∀ f, (e.reportLines.skipFaulty file call f).Labelled := fun f =>
    hlines.of_eq rfl (List.Subset.refl _) rfl
  cases course with
  | error f => exact hskips f
  | ok course =>
    cases course with
    | next => exact hlines.advance
    | moved => exact hlines
    | entered => exact hlines.announce
    | parked => exact hlines
    | stalled => exact hskips _

theorem Labelled.starts (h : e.Labelled) (hscript : script.Labelled) (owner : Option Owner) :
    (e.starts script owner).phase.engine.Labelled := by
  unfold Engine.starts
  split
  · exact h.of_eq rfl (List.Subset.refl _) rfl
  · have hchain : Chain.Labelled { e.chain with owner := owner <|> e.chain.owner } :=
      h.chain.of_scripts (List.Subset.refl _) rfl
    have hentered : (e.withChain ({ e.chain with owner := owner <|> e.chain.owner }.enter
        script)).Labelled := ⟨h.cache, hchain.enter hscript⟩
    exact hentered.announce

theorem Labelled.goesOn (h : e.Labelled) : e.goesOn.phase.engine.Labelled :=
  h.of_eq rfl (List.Subset.refl _) rfl

variable [World ω] {action : Action} {i : Instruction} {label : String} {r : Request ω}
  {o : Opening ω}

theorem Acts.labelled {course : Except Fault Course} (hacts : e.Acts action e' course)
    (h : e.Labelled) : e'.Labelled := by
  cases hacts with
  | @jump label p i stands marked counts =>
    exact ⟨h.cache, (h.chain.countVisit label).of_scripts (List.Subset.refl _) rfl⟩
  | @run target cache entry room found | @runFirst target cache entry room found =>
    have hfound := h.cache.loadFirst (e.candidates target)
    rw [found] at hfound
    exact ⟨hfound.1, h.chain.enter (hfound.2 entry rfl)⟩
  | goBack => exact h.of_eq rfl e.chain.scripts_goBack.subset (Chain.visits_goBack _)
  | _ => exact h.of_eq rfl (List.Subset.refl _) rfl

theorem Labelled.step (h : e.Labelled) (hp : e.chain.position = some p)
    (hi : p.instruction? = some i) (hstep : e.step p i = .ok e') : e'.Labelled := by
  cases i with
  | marker name literal line =>
    obtain ⟨hcounts, rfl⟩ := step_marker_eq_ok.mp hstep
    have hopen : p.script ∈ e.chain.scripts := by
      simp [Chain.scripts, (Chain.position_eq_some.mp hp).1]
    -- the chain counts the name of the marker, which a labelled script has from its literal
    obtain ⟨literal', line', heq⟩ := h.chain.scripts _ hopen _ (List.mem_of_getElem? hi) rfl
    obtain ⟨rfl, -, -⟩ := Instruction.marker.inj heq
    exact ⟨h.cache, (h.chain.countVisit literal').of_scripts (List.Subset.refl _) rfl⟩
  | call call =>
    have harrived : (e.arrived p).Labelled :=
      h.of_eq (by simp [arrived]) (by simp [arrived]) (by simp [arrived])
    cases dispatched_of_dispatch hstep with
    | unresolved unknown => exact harrived.of_eq rfl (List.Subset.refl _) rfl
    | refused resolves refuses => exact harrived.follow _ _ _
    | acted asks acts => exact (acts.labelled harrived).follow _ _ _

theorem Opened.labelled (hopened : e.Opened r o) (h : e.Labelled)
    (hcache : ∀ cache taken, r = .setCache cache taken → cache.Labelled) :
    o.phase.engine.Labelled := by
  cases hopened with
  | @run path owner cache entry found =>
    have hfound := h.cache.loadFirst (e.candidates path)
    rw [found] at hfound
    exact (h.withCache hfound.1).reportLines.starts (hfound.2 entry rfl) owner
  | @runNothing path owner cache f missing inside =>
    have hfound := h.cache.loadFirst (e.candidates path)
    rw [missing] at hfound
    exact (h.withCache hfound.1).reportLines.of_eq rfl (List.Subset.refl _) rfl
  | @runNothingIdle path owner cache f missing outside =>
    have hfound := h.cache.loadFirst (e.candidates path)
    rw [missing] at hfound
    have hread := (h.withCache hfound.1).reportLines
    exact ⟨hread.cache, h.chain.of_scripts e.chain.scripts_finish.subset rfl⟩
  | @runContent file source owner parsed parses =>
    subst parses
    have hscript := Script.parse_labelled (ScriptPath.normalize file) source
    generalize Script.parse (ScriptPath.normalize file) source = parsed at hscript
    have htold : (parsed.faults.foldl Engine.report e).Labelled := by
      rw [foldl_report]
      exact h.of_eq rfl (List.Subset.refl _) rfl
    exact htold.starts hscript owner
  | updateEnded ready waits polled =>
    exact Labelled.goesOn (h.of_eq rfl (List.Subset.refl _) rfl)
  | closeTalk waits => exact h.goesOn
  | closeDialog waits => exact h.goesOn
  | select waits => exact Labelled.goesOn (h.of_eq rfl (List.Subset.refl _) rfl)
  | stop => exact ⟨h.cache, Chain.labelled_empty⟩
  | @setCache cache taken => exact h.withCache (hcache cache taken rfl)
  | _ => exact h.of_eq rfl (List.Subset.refl _) rfl

/-- What a passage of a label comes to: it is counted on the way to a position, or there is no room
for it in the count of the label. -/
inductive Passing (e : Engine ω) (label : String) (q : Position) :
    Except (Crash ω) (Engine ω) → Prop where
  | counted {e' : Engine ω}
      (room : (e.chain.visitCount q.script.file label).toNat + 1 < UInt32.size)
      (moved : e'.chain.position = some q)
      (counts : e.chain.CountsOn e'.chain q.script.file label) : Passing e label q (.ok e')
  | full (full : (e.chain.visitCount q.script.file label).toNat + 1 = UInt32.size) :
      Passing e label q (.error
        ⟨.visits (Chain.visitKey q.script.file (Label.normalize label)), e.scene.world⟩)

/-- The marker at a line is found under a label: the table and every jump have the first marker of
the name, and a run over the marker counts on where a jump does. -/
structure Heeds (e : Engine ω) (p : Position) (n : Nat) (label : String) : Prop where
  kept : ∃ m ≤ n, (Label.normalize label, m) ∈ p.script.labels ∧
    p.script.labelIndex? label = some m ∧
    ∀ c, e.Asks c (.jump label) → e.Passing label ⟨p.script, m + 1⟩ (e.step p (.call c))
  passed : p.line = n → ∀ i, p.instruction? = some i → e.Passing label p.advanced (e.step p i)

omit [World ω] in
theorem Passing.of_full {q : Position} (hp : e.chain.position = some p)
    (hfile : q.script.file = p.script.file)
    (hfull : e.chain.canCount (Label.normalize label) = false) :
    e.Passing label q (.error ⟨.visits (e.chain.hereKey (Label.normalize label)),
      e.scene.world⟩) := by
  have hlast := Chain.canCount_eq_false_iff.mp hfull
  rw [Chain.hereKey_of_position hp] at hlast ⊢
  rw [Passage.key, ← hfile] at hlast ⊢
  exact .full hlast

theorem heeds_of_marker {n line : Nat} {literal label : String} (hp : e.chain.position = some p)
    (hmarker : p.script.instructions[n]? = some (.ofLabel literal line))
    (hlabel : Label.normalize label = Label.normalize literal) : e.Heeds p n label := by
  rw [Instruction.ofLabel, ← hlabel] at hmarker
  -- the name may stand before line `n` as well, and then a jump goes to the first of its markers
  obtain ⟨m, hle, hm⟩ := Script.exists_markerOf? hmarker
  have hkept := Script.mem_labels_iff.mpr (Script.markerOf?_eq_some_iff.mp hm)
  refine ⟨⟨m, hle, hkept, hm, fun c hasks => ?_⟩, fun hline i hi => ?_⟩
  · have hlands := step_jump hp hasks
    generalize e.step p (.call c) = r at hlands
    cases hlands with
    | behind marked counts moved silent =>
      obtain rfl := Option.some.inj (marked.symm.trans hm)
      have hroom := (Chain.canCount_iff hp).mp counts
      refine .counted hroom ?_ (Chain.countsOn_countVisit (p := p) hp hroom (by rw [moved]))
      rw [moved]
      exact Chain.position_eq_some.mpr ⟨(Chain.position_eq_some.mp hp).1, rfl⟩
    | full marked full => exact .of_full hp rfl full
    | nowhere missing passed told code => cases missing.symm.trans hm
  · rw [Position.instruction?, hline, hmarker] at hi
    obtain rfl := Option.some.inj hi
    cases hcounts : e.chain.canCount (Label.normalize label) with
    | true =>
      have hroom := (Chain.canCount_iff hp).mp hcounts
      rw [step_marker_eq_ok.mpr ⟨hcounts, rfl⟩]
      refine .counted hroom ?_ (Chain.countsOn_countVisit (p := p) hp hroom rfl)
      exact Chain.position_eq_some.mpr ⟨(Chain.position_eq_some.mp hp).1,
        congrArg (· + 1) (Chain.position_eq_some.mp hp).2⟩
    | false =>
      rw [step, pass_eq_error.mpr ⟨hcounts, rfl⟩]
      exact .of_full hp rfl hcounts

end Engine

open Engine

variable {ω : Type} [World ω] {s t : Phase ω}

/-- The host brings in no cache but with labelled scripts. -/
def Request.Labelled (r : Request ω) : Prop :=
  ∀ cache taken, r = .setCache cache taken → cache.Labelled

theorem Round.labelled (hround : Round s t) (h : s.engine.Labelled) : t.engine.Labelled := by
  cases hround with
  | halt held => exact h
  | leave free runs ended leaves =>
    obtain ⟨caller, callers, -, rfl⟩ := Chain.leave?_eq_some.mp leaves
    exact h.of_eq rfl (Chain.scripts_leave leaves).subset rfl
  | finish free ended alone => exact h.of_eq rfl (Chain.scripts_finish _).subset rfl
  | yield free stands next =>
    exact h.of_eq (by simp [Phase.engine]) (by simp [Phase.engine]) (by simp [Phase.engine])
  | step free stands next ran => exact h.step stands next ran

theorem labelled_of_reachesBy {table : CommandTable} {options : Options} {scene : Scene ω}
    (hscene : scene.cache.Labelled)
    (h : ReachesBy Request.Labelled (.resting (.fresh table options scene)) s) :
    s.engine.Labelled :=
  invariant_of_reachesBy (P := fun s => s.engine.Labelled) h ⟨hscene, Chain.labelled_empty⟩
    (fun _ hs hround => hround.labelled hs)
    (fun _ hs hallowed hopen => (opened_of_opening hopen).labelled hs hallowed)

/-- A label has one normal form, which is its own: for every spelling of a body the body in small
letters between `@` and colon. Under all spellings of its label a marker is found, in the table, by a
jump and in the counts, and a jump to it and a run over it count on under one key, as long as there
is room in its count. A run over labelled scripts, as all are that were read from text, counts
nothing under other keys. -/
theorem labels_have_one_key (table : CommandTable) (options : Options) :
    (∀ raw, Label.normalize (Label.normalize raw) = Label.normalize raw) ∧
    (∀ (w : Label.Spelling) (body : String), Label.IsBody body.toList →
      Label.normalize (Text.onChars w.write body) = "@" ++ Text.onChars Text.lower body ++ ":") ∧
    (∀ (e : Engine ω) p n literal line label, e.chain.position = some p →
      p.script.instructions[n]? = some (.ofLabel literal line) →
      Label.normalize label = Label.normalize literal → e.Heeds p n label) ∧
    ∀ (scene : Scene ω) s, scene.cache.Labelled →
      ReachesBy Request.Labelled (.resting (.fresh table options scene)) s → s.chain.Labelled := by
  refine ⟨Label.normalize_normalize, fun w body hbody => ?_, fun e p n literal line label =>
    heeds_of_marker, fun scene s hscene hreach => (labelled_of_reachesBy hscene hreach).chain⟩
  rw [← String.toList_inj, Label.normalize_toList, Text.onChars, String.toList_ofList,
    (hbody.suits w).normalizeChars_write]
  simp [Text.onChars]

namespace Rehearsal

/-- Three rounds, between a marker and a jump that spell its label apart. -/
def rounds : String := "@ROUND\nAdd($i, 1);\nIf($i < 3, \" round : \");"

def rounded : Script := (Script.parse "rounds" rounds).script

def another : Call :=
  ⟨"If", ["$i < 3", " round : "], "", "If($i < 3, \" round : \");", 3⟩

/-- Without the `@`, and with a blank wherever there may be one. -/
def spaced : Label.Spelling where
  signed := false
  closed := true
  front := [' ']
  beforeColon := [' ']
  back := [' ']
  blank := by simp [Text.isBlank]

theorem isBody_round : Label.IsBody "round".toList where
  trimmed := by
    have hvisible : "round".toList.all (!Text.isBlank ·) = true := by decide
    exact Text.isTrimmed_of_all fun c hc => by simpa using List.all_eq_true.mp hvisible c hc
  unsigned := by decide
  unclosed := by decide

/-- The second round is over, and the jump to the third is counted with the two passages before. -/
theorem rounds_counted_together : ∃ (s : Phase Recording) (e' : Engine Recording),
    (scene.cache.Labelled ∧ ReachesBy Request.Labelled
        (.resting (fresh Rehearsal.table { maxSteps := 4 } scene)) s ∧
      Label.IsBody "round".toList ∧ Text.onChars spaced.write "round" = " round : " ∧
      s.chain.position = some ⟨rounded, 2⟩ ∧
      rounded.instructions[0]? = some (.ofLabel "@ROUND" 1) ∧
      s.engine.Asks another (.jump " round : ")) ∧
    Label.normalize " round : " = "@round:" ∧ s.chain.Labelled ∧
    s.engine.step ⟨rounded, 2⟩ (.call another) = .ok e' ∧
    e'.chain.position = some ⟨rounded, 1⟩ ∧
    s.chain.visitCount "rounds" "Round" = 2 ∧ e'.chain.visitCount "rounds" "Round" = 3 := by
  obtain ⟨hnormal, hspelt, hheeds, hruns⟩ :=
    labels_have_one_key (ω := Recording) Rehearsal.table { maxSteps := 4 }
  obtain ⟨e, hserve, hstate⟩ := exists_ok
    (r := serve [.runContent "rounds" rounds none]
      (fresh Rehearsal.table { maxSteps := 4 } scene))
    (f := fun e => (e.chain.visitCount "rounds" "Round", e.chain.position, e.asked? another))
    (b := (2, some ⟨rounded, 2⟩, some (.jump " round : "))) (by decide +kernel)
  obtain ⟨hcount, hstate⟩ := Prod.mk.inj hstate
  obtain ⟨hposition, hasked⟩ := Prod.mk.inj hstate
  have hasks := asked?_eq_some_iff.mp hasked
  have hscene : scene.cache.Labelled := by
    intro key entry hentry
    cases hentry
  have hreach : ReachesBy Request.Labelled
      (.resting (fresh Rehearsal.table { maxSteps := 4 } scene)) (.resting e) :=
    reachesBy_of_serve (by simp [Request.Labelled]) hserve
  have hmarker : rounded.instructions[0]? = some (.ofLabel "@ROUND" 1) := by decide +kernel
  have hwritten : Text.onChars spaced.write "round" = " round : " := by decide
  have hnormalized : Label.normalize " round : " = "@round:" := by
    rw [← hwritten, hspelt spaced "round" isBody_round]
    decide +kernel
  have hliteral : Label.normalize " round : " = Label.normalize "@ROUND" := by
    rw [hnormalized]
    decide +kernel
  obtain ⟨⟨m, hm, -, -, hjumps⟩, -⟩ := hheeds e _ 0 _ _ _ hposition hmarker hliteral
  obtain rfl := Nat.le_zero.mp hm
  have hround : Label.normalize "Round" = Label.normalize " round : " := by
    rw [hnormalized]
    decide +kernel
  have hpassing := hjumps another hasks
  generalize hstep : e.step ⟨rounded, 2⟩ (.call another) = r at hpassing
  cases hpassing with
  | @counted e' room moved counts =>
    have hmore := counts.more "Round" hround
    have htwo : (e.chain.visitCount rounded.file "Round").toNat = 2 := congrArg UInt32.toNat hcount
    rw [htwo] at hmore
    exact ⟨.resting e, e', ⟨hscene, hreach, isBody_round, hwritten, hposition, hmarker, hasks⟩,
      hnormalized, hruns scene _ hscene hreach, hstep, moved, hcount, UInt32.toNat_inj.mp hmore⟩
  | full full =>
    have htwo : (e.chain.visitCount rounded.file " round : ").toNat = 2 := by
      rw [Chain.visitCount, ← hround]
      exact congrArg UInt32.toNat hcount
    rw [htwo] at full
    cases full

end Rehearsal

end Cutscene
