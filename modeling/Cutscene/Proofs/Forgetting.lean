import Cutscene.Proofs.FaultyLines
import Mathlib.Data.List.Induction

/-! Forgotten scripts. A loader gives the same text whenever it is asked, so that a script read
again is the script that the cache had, and of two engines in lockstep one may have to read again
what the other one remembers. All that comes of it is that faults of lines are told once more. -/

namespace Cutscene

/-- Whether the code is one of those that the parser states. -/
def Fault.isParse (f : Fault) : Bool := "PARSE_".toList.isPrefixOf f.code.toList

theorem Fault.isParse_of_isOfLine {f : Fault} (h : f.cause.isOfLine = true) :
    f.isParse = true := by
  have hcodes : ∀ code ∈ ["PARSE_LABEL_INVALID", "PARSE_LINE_INVALID", "PARSE_UNTERMINATED_STRING",
      "PARSE_UNCLOSED_PAREN"], "PARSE_".toList.isPrefixOf code.toList = true := by decide
  apply hcodes f.code
  rw [code]
  cases hcause : f.cause with
  | labelMalformed line => simp [Cause.code]
  | lineMalformed line => simp [Cause.code]
  | textUnterminated => simp [Cause.code]
  | parenthesisUnclosed => simp [Cause.code]
  | _ =>
    rw [hcause] at h
    cases h

theorem Script.isParse_of_mem {file source : String} {f : Fault}
    (h : f ∈ (parse file source).faults) : f.isParse = true := by
  rw [parse_faults] at h
  exact Fault.isParse_of_isOfLine (isOfLine_of_mem h)

/-- The second history tells what the first one tells, in the same order. What it tells besides are
the faults of a text that the loader has and that was told of before. -/
inductive Repeats (read : String → Except Fault String) : List Fault → List Fault → Prop where
  | nil : Repeats read [] []
  | tell {told told' : List Fault} (f : Fault) (h : Repeats read told told') :
      Repeats read (told ++ [f]) (told' ++ [f])
  | again {told told' : List Fault} {key source : String} (reads : read key = .ok source)
      (before : ∀ f ∈ (Script.parse key source).faults, f ∈ told ∧ f.isParse = true)
      (h : Repeats read told told') :
      Repeats read told (told' ++ (Script.parse key source).faults)

namespace Repeats

variable {read : String → Except Fault String} {told told' : List Fault}

theorem tellAll (h : Repeats read told told') (faults : List Fault) :
    Repeats read (told ++ faults) (told' ++ faults) := by
  induction faults using List.reverseRecOn with
  | nil => simpa using h
  | append_singleton faults f ih => simpa using ih.tell f

theorem filter_eq (h : Repeats read told told') :
    told'.filter (!·.isParse) = told.filter (!·.isParse) := by
  induction h with
  | nil => rfl
  | tell f h ih => rw [List.filter_append, List.filter_append, ih]
  | @again told told' key source reads before h ih =>
    have hnone : (Script.parse key source).faults.filter (!·.isParse) = [] :=
      List.filter_eq_nil_iff.mpr fun f hf => by simp [(before f hf).2]
    rw [List.filter_append, ih, hnone, List.append_nil]

/-- Of what is not about lines, just as much is told after a part that repeats another. -/
theorem filter_eq_of_append {rest rest' : List Fault} (h : Repeats read told told')
    (hall : Repeats read (told ++ rest) (told' ++ rest')) :
    rest'.filter (!·.isParse) = rest.filter (!·.isParse) := by
  have heq := hall.filter_eq
  rw [List.filter_append, List.filter_append, h.filter_eq] at heq
  exact List.append_cancel_left heq

end Repeats

namespace Cache

/-- The second cache holds a part of what the first one holds. All that they hold is what the loader
gives, and of its lines the chains of the first one were told before or will be told next. -/
structure Forgets (read : String → Except Fault String) (told told' : List Fault)
    (c c' : Cache) : Prop where
  reads : c.read = read
  reads' : c'.read = read
  faithful : ∀ key entry, c.scripts.get? key = some entry → ∃ source, read key = .ok source ∧
    entry.script = (Script.parse key source).script ∧
      ∀ f ∈ (Script.parse key source).faults, f ∈ told ++ c.faults
  kept : ∀ key entry', c'.scripts.get? key = some entry' →
    ∃ entry, c.scripts.get? key = some entry ∧ entry.script = entry'.script
  repeats : Repeats read (told ++ c.faults) (told' ++ c'.faults)

variable {read : String → Except Fault String} {told told' : List Fault} {c c' : Cache}

theorem Forgets.clear (h : Forgets read told told' c c') (htaken : c'.faults = []) :
    Forgets read told told' c c'.clear := by
  have hrepeats := h.repeats
  rw [htaken] at hrepeats
  refine ⟨h.reads, h.reads', h.faithful, ?_, hrepeats⟩
  intro key entry hentry
  cases hentry

/-- A cache that has read the source of a script. -/
structure HasRead (read : String → Except Fault String) (key source : String)
    (c d : Cache) : Prop where
  reads : d.read = read
  scripts : ∃ entry, entry.script = (Script.parse key source).script ∧
    d.scripts = c.scripts.insert key entry
  faults : d.faults = c.faults ++ (Script.parse key source).faults

variable {key source : String} {d d' : Cache}

theorem Forgets.readAgain {entry : Cached} (h : Forgets read told told' c c')
    (hheld : c.scripts.get? key = some entry) (hread : read key = .ok source)
    (hagain : HasRead read key source c' d') : Forgets read told told' c d' := by
  obtain ⟨source', hread', hscript, hbefore⟩ := h.faithful key entry hheld
  obtain rfl : source' = source := Except.ok.inj (hread'.symm.trans hread)
  obtain ⟨entry₁, hentry₁, hscripts⟩ := hagain.scripts
  refine ⟨h.reads, hagain.reads, h.faithful, ?_, ?_⟩
  · intro key' entry' hentry'
    rw [hscripts, Dict.get?_insert] at hentry'
    split at hentry'
    · next hkey =>
      obtain rfl := Option.some.inj hentry'
      exact ⟨entry, hkey ▸ hheld, hscript.trans hentry₁.symm⟩
    · exact h.kept key' entry' hentry'
  · have hlines : ∀ f ∈ (Script.parse key source').faults,
        f ∈ told ++ c.faults ∧ f.isParse = true :=
      fun f hf => ⟨hbefore f hf, Script.isParse_of_mem hf⟩
    simpa [hagain.faults] using h.repeats.again hread hlines

theorem Forgets.readBoth (h : Forgets read told told' c c') (hread : read key = .ok source)
    (hboth : HasRead read key source c d) (hboth' : HasRead read key source c' d') :
    Forgets read told told' d d' := by
  obtain ⟨entry, hentry, hscripts⟩ := hboth.scripts
  obtain ⟨entry₁, hentry₁, hscripts'⟩ := hboth'.scripts
  refine ⟨hboth.reads, hboth'.reads, ?_, ?_, ?_⟩
  · intro key' entry' hentry'
    rw [hscripts, Dict.get?_insert] at hentry'
    split at hentry'
    · next hkey =>
      subst hkey
      obtain rfl := Option.some.inj hentry'
      exact ⟨source, hread, hentry, fun f hf => by simp [hboth.faults, hf]⟩
    · obtain ⟨source', hread', hscript, hbefore⟩ := h.faithful key' entry' hentry'
      refine ⟨source', hread', hscript, fun f hf => ?_⟩
      rw [hboth.faults, ← List.append_assoc]
      exact List.mem_append_left _ (hbefore f hf)
  · intro key' entry' hentry'
    rw [hscripts', Dict.get?_insert] at hentry'
    rw [hscripts, Dict.get?_insert]
    split at hentry'
    · next hkey =>
      obtain rfl := Option.some.inj hentry'
      exact ⟨entry, if_pos hkey, hentry.trans hentry₁.symm⟩
    · next hkey =>
      rw [if_neg hkey]
      exact h.kept key' entry' hentry'
  · simpa [hboth.faults, hboth'.faults] using h.repeats.tellAll (Script.parse key source).faults

/-- Either both caches hold a script, or one of them or both read it. -/
theorem Forgets.load (h : Forgets read told told' c c') (path : String) :
    Forgets read told told' (c.load path).1 (c'.load path).1 ∧
      (c'.load path).2.map Cached.script = (c.load path).2.map Cached.script := by
  unfold Cache.load
  simp only [h.reads, h.reads']
  generalize ScriptPath.normalize path = key
  cases hheld' : c'.scripts.get? key with
  | some entry' =>
    obtain ⟨entry, hheld, hsame⟩ := h.kept key entry' hheld'
    simp only [hheld]
    exact ⟨h, congrArg Except.ok hsame.symm⟩
  | none =>
    cases hheld : c.scripts.get? key with
    | some entry =>
      obtain ⟨source, hread, hscript, -⟩ := h.faithful key entry hheld
      simp only [hread]
      exact ⟨h.readAgain hheld hread ⟨rfl, ⟨_, rfl, rfl⟩, rfl⟩, congrArg Except.ok hscript.symm⟩
    | none =>
      cases hread : read key with
      | error f => exact ⟨⟨rfl, rfl, h.faithful, h.kept, h.repeats⟩, rfl⟩
      | ok source =>
        simp only
        exact ⟨h.readBoth hread ⟨rfl, ⟨_, rfl, rfl⟩, rfl⟩ ⟨rfl, ⟨_, rfl, rfl⟩, rfl⟩, rfl⟩

theorem Forgets.loadAny (h : Forgets read told told' c c') (paths : List String) :
    Forgets read told told' (c.loadAny paths).1 (c'.loadAny paths).1 ∧
      (c'.loadAny paths).2.map (·.map Cached.script) =
        (c.loadAny paths).2.map (·.map Cached.script) := by
  induction paths generalizing c c' with
  | nil => exact ⟨h, rfl⟩
  | cons path rest ih =>
    obtain ⟨hcache, hsame⟩ := h.load path
    simp only [Cache.loadAny]
    generalize c.load path = loaded at hcache hsame
    generalize c'.load path = loaded' at hcache hsame
    obtain ⟨c₁, found⟩ := loaded
    obtain ⟨c₁', found'⟩ := loaded'
    cases found with
    | ok entry =>
      cases found' with
      | ok entry' => exact ⟨hcache, congrArg some hsame⟩
      | error f' => cases hsame
    | error f =>
      cases found' with
      | ok entry' => cases hsame
      | error f' =>
        obtain rfl := Except.error.inj hsame
        by_cases hnot : isNotFound f' = true
        · simpa only [hnot, if_true] using ih hcache
        · simpa only [hnot] using ⟨hcache, rfl⟩

theorem Forgets.loadFirst (h : Forgets read told told' c c') (paths : List String) :
    Forgets read told told' (c.loadFirst paths).1 (c'.loadFirst paths).1 ∧
      (c'.loadFirst paths).2.map Cached.script = (c.loadFirst paths).2.map Cached.script := by
  obtain ⟨hcache, hsame⟩ := h.loadAny paths
  unfold Cache.loadFirst
  generalize c.loadAny paths = loaded at hcache hsame
  generalize c'.loadAny paths = loaded' at hcache hsame
  obtain ⟨c₁, found⟩ := loaded
  obtain ⟨c₁', found'⟩ := loaded'
  cases found with
  | none =>
    cases found' with
    | none => exact ⟨hcache, rfl⟩
    | some found' => cases hsame
  | some found =>
    cases found' with
    | none => cases hsame
    | some found' => exact ⟨hcache, Option.some.inj hsame⟩

end Cache

namespace Engine

variable {ω : Type}

/-- The engine with another memory: what its chain was told, and what was read. -/
def remembering (e : Engine ω) (diagnostics : Array Fault) (cache : Cache) : Engine ω :=
  { e with diagnostics, scene := { e.scene with cache } }

/-- The second engine stands where the first one stands. It may have forgotten scripts that the
first one remembers, and its chain may have been told of their lines again. -/
structure Forgets (read : String → Except Fault String) (taken taken' : List Fault)
    (e e' : Engine ω) : Prop where
  same : e' = e.remembering e'.diagnostics e'.scene.cache
  handed : Repeats read taken taken'
  cache : Cache.Forgets read (taken ++ e.diagnostics.toList) (taken' ++ e'.diagnostics.toList)
    e.scene.cache e'.scene.cache

/-- Between two instructions nobody has faults of lines left to take. -/
structure Lockstep (read : String → Except Fault String) (taken taken' : List Fault)
    (e e' : Engine ω) : Prop extends Forgets read taken taken' e e' where
  told : e.scene.cache.faults = []
  told' : e'.scene.cache.faults = []

/-- An operation that neither looks at the memory of an engine nor changes it. -/
def Unmindful (op : Engine ω → Engine ω) : Prop :=
  ∀ e diagnostics cache, op (e.remembering diagnostics cache) =
    (op e).remembering diagnostics cache

variable {read : String → Except Fault String} {taken taken' : List Fault} {e e' : Engine ω}

namespace Forgets

theorem chain (h : Forgets read taken taken' e e') : e'.chain = e.chain := by rw [h.same]; rfl

theorem world (h : Forgets read taken taken' e e') : e'.scene.world = e.scene.world := by
  rw [h.same]; rfl

theorem options (h : Forgets read taken taken' e e') : e'.options = e.options := by rw [h.same]; rfl

theorem unmindful {op : Engine ω → Engine ω} (hop : Unmindful op)
    (h : Forgets read taken taken' e e') : Forgets read taken taken' (op e) (op e') := by
  have hself : op e = (op e).remembering e.diagnostics e.scene.cache := hop e _ _
  have hother : op e' = (op e).remembering e'.diagnostics e'.scene.cache := by
    rw [← hop, ← h.same]
  have hcache : (op e).scene.cache = e.scene.cache := by rw [hself]; rfl
  have hdiagnostics : (op e).diagnostics = e.diagnostics := by rw [hself]; rfl
  have hcache' : (op e').scene.cache = e'.scene.cache := by rw [hother]; rfl
  have hdiagnostics' : (op e').diagnostics = e'.diagnostics := by rw [hother]; rfl
  refine ⟨?_, h.handed, ?_⟩
  · rw [hcache', hdiagnostics', hother]
  · rw [hcache, hcache', hdiagnostics, hdiagnostics']
    exact h.cache

theorem withCache {c c' : Cache} (h : Forgets read taken taken' e e')
    (hcache : Cache.Forgets read (taken ++ e.diagnostics.toList)
      (taken' ++ e'.diagnostics.toList) c c') :
    Forgets read taken taken' (e.withCache c) (e'.withCache c') := by
  refine ⟨?_, h.handed, hcache⟩
  conv_lhs => rw [h.same]
  rfl

end Forgets

theorem unmindful_withChain (c : Chain) : Unmindful (ω := ω) (·.withChain c) := fun _ _ _ => rfl

theorem unmindful_withWorld (world : ω) : Unmindful (·.withWorld world) := fun _ _ _ => rfl

theorem unmindful_advance : Unmindful (ω := ω) advance := fun _ _ _ => rfl

theorem unmindful_observe (event : Event) : Unmindful (ω := ω) (·.observe event) := by
  intro e diagnostics cache
  have hobserved : (e.remembering diagnostics cache).observed = e.observed := rfl
  by_cases h : e.observed = true
  · simp only [observe, hobserved, h, if_true]
    rfl
  · simp only [observe, hobserved, h]
    rfl

theorem unmindful_announce : Unmindful (ω := ω) announce := by
  intro e diagnostics cache
  have hchain : (e.remembering diagnostics cache).chain = e.chain := rfl
  unfold announce
  rw [hchain]
  cases e.chain.script? with
  | none => rfl
  | some s => exact unmindful_observe _ e diagnostics cache

namespace Lockstep

theorem unmindful {op : Engine ω → Engine ω} (hop : Unmindful op)
    (h : Lockstep read taken taken' e e') : Lockstep read taken taken' (op e) (op e') := by
  have hcache : ∀ e : Engine ω, (op e).scene.cache = e.scene.cache := by
    intro e
    have hself : op e = (op e).remembering e.diagnostics e.scene.cache := hop e _ _
    rw [hself]
    rfl
  exact ⟨h.toForgets.unmindful hop, (hcache e).symm ▸ h.told, (hcache e').symm ▸ h.told'⟩

theorem report (h : Lockstep read taken taken' e e') (f : Fault) :
    Lockstep read taken taken' (e.report f) (e'.report f) := by
  have hrepeats := h.cache.repeats
  rw [h.told, h.told', List.append_nil, List.append_nil] at hrepeats
  refine ⟨⟨?_, h.handed, h.cache.reads, h.cache.reads', ?_, h.cache.kept, ?_⟩, h.told, h.told'⟩
  · conv_lhs => rw [h.same]
    rfl
  · intro key entry hentry
    obtain ⟨source, hread, hscript, hbefore⟩ := h.cache.faithful key entry hentry
    refine ⟨source, hread, hscript, fun g hg => ?_⟩
    have hmem := hbefore g hg
    simp only [Engine.report, Array.toList_push, List.mem_append] at hmem ⊢
    tauto
  · simpa [Engine.report, h.told, h.told'] using hrepeats.tell f

theorem skipFaulty (h : Lockstep read taken taken' e e') (file : String) (call : Call) (f : Fault) :
    Lockstep read taken taken' (e.skipFaulty file call f) (e'.skipFaulty file call f) :=
  (h.report _).unmindful unmindful_advance

theorem hasPending (h : Lockstep read taken taken' e e') :
    e'.hasPending Cause.stepsCode = e.hasPending Cause.stepsCode := by
  have hall := h.cache.repeats
  rw [h.told, h.told', List.append_nil, List.append_nil] at hall
  have hrest := h.handed.filter_eq_of_append hall
  have hfilter : ∀ diagnostics : Array Fault, diagnostics.any (·.code = Cause.stepsCode) =
      (diagnostics.toList.filter (!·.isParse)).any (·.code = Cause.stepsCode) := by
    intro diagnostics
    rw [List.any_filter, ← Array.any_toList]
    congr 1
    funext f
    by_cases hf : f.code = Cause.stepsCode
    · have hparse : f.isParse = false := by
        rw [Fault.isParse, hf]
        decide
      simp [hf, hparse]
    · simp [hf]
  rw [Engine.hasPending, Engine.hasPending, hfilter, hfilter, hrest]

theorem yield (h : Lockstep read taken taken' e e') (p : Position) (i : Instruction) :
    Lockstep read taken taken' (e.yield p i) (e'.yield p i) := by
  unfold Engine.yield
  rw [h.hasPending, h.options]
  split
  · exact h
  · exact h.report _

end Lockstep

theorem Forgets.reportLines (h : Forgets read taken taken' e e') :
    Lockstep read taken taken' e.reportLines e'.reportLines := by
  rw [reportLines_eq, reportLines_eq]
  refine ⟨⟨?_, h.handed, h.cache.reads, h.cache.reads', ?_, h.cache.kept, ?_⟩, rfl, rfl⟩
  · conv_lhs => rw [h.same]
    rfl
  · intro key entry hentry
    obtain ⟨source, hread, hscript, hbefore⟩ := h.cache.faithful key entry hentry
    exact ⟨source, hread, hscript, by simpa using hbefore⟩
  · simpa using h.cache.repeats

theorem Forgets.follow (h : Forgets read taken taken' e e') (file : String) (call : Call)
    (course : Except Fault Course) :
    Lockstep read taken taken' (e.follow file call course) (e'.follow file call course) := by
  have hlines := h.reportLines
  cases course with
  | error f => exact hlines.skipFaulty file call f
  | ok course =>
    cases course with
    | next => exact hlines.unmindful unmindful_advance
    | moved => exact hlines
    | entered => exact hlines.unmindful unmindful_announce
    | parked => exact hlines
    | stalled => exact hlines.skipFaulty file call _

end Engine

end Cutscene
