import Cutscene.Proofs.Acts
import Cutscene.Proofs.Finding
import Mathlib.Data.List.Induction

/-! What a cache remembers. Whatever is done with a cache, and however its loader changes, the deeds
of a run can be told apart into a few kinds, each with one effect. What is to be said about runs,
such as that a script is read once between two clears, follows from what a single deed does. -/

namespace Cutscene

namespace Cache

/-- What is done with a cache, or to the loader behind it. -/
inductive Use where
  | load (path : String)
  | loadFirst (paths : List String)
  | insert (script : Script)
  | contains (path : String)
  | takeFaults
  | clear
  | changeLoader (read : String → Except Fault String)

/-- What shows of that, key by key. -/
inductive Deed where
  /-- The loader was asked for the text at a key. -/
  | asked (key : String) (answer : Except Fault String)
  /-- A load of the script at a key came to its end. -/
  | gave (key : String) (found : Except Fault Cached)
  | inserted (key : String) (entry : Cached)
  | checked (key : String) (held : Bool)
  | told (faults : List Fault)
  | cleared
  | reloaded

/-- Neither the cache nor the loader has a script at the path. -/
def misses (c : Cache) (path : String) : Bool :=
  match c.finds (ScriptPath.normalize path) with
  | .ok _ => false
  | .error f => isNotFound f

def after (c : Cache) : Use → Cache
  | .load path => (c.load path).1
  | .loadFirst paths => (c.loadFirst paths).1
  | .insert script => (c.insert script).1
  | .contains _ => c
  | .takeFaults => c.takeFaults.1
  | .clear => c.clear
  | .changeLoader read => { c with read }

/-- The questions to the loader that one cache has noted down and the other one has not, with the
answers to them. -/
def questions (c c' : Cache) : List Deed :=
  (c'.reads.toList.drop c.reads.size).map fun key => .asked key (c.read key)

/-- What came of loading a path, if a path was loaded. -/
def given (path : Option String) (found : Except Fault Cached) : List Deed :=
  path.toList.map fun path => .gave (ScriptPath.normalize path) found

/-- The deeds that make up a use. A search is a load of the first path that is not missed. -/
def deeds (c : Cache) : Use → List Deed
  | .load path => c.questions (c.load path).1 ++ given (some path) (c.load path).2
  | .loadFirst paths =>
    c.questions (c.loadFirst paths).1 ++
      given (paths.find? fun path => !c.misses path) (c.loadFirst paths).2
  | .insert script => [.inserted (ScriptPath.normalize script.file) (c.insert script).2]
  | .contains path => [.checked (ScriptPath.normalize path) (c.contains path)]
  | .takeFaults => [.told c.takeFaults.2]
  | .clear => [.cleared]
  | .changeLoader _ => [.reloaded]

/-- The deeds of a run, oldest first. -/
def history (c : Cache) : List Use → List Deed
  | [] => []
  | use :: uses => c.deeds use ++ (c.after use).history uses

namespace Deed

/-- The text of a script was read. -/
def reads (key : String) : Deed → Bool
  | asked key' (.ok _) => key' = key
  | _ => false

/-- The faults of lines that came up. -/
def faults : Deed → List Fault
  | asked key (.ok source) => (Script.parse key source).faults
  | _ => []

/-- A script got under its key: it was read there, or inserted. -/
inductive Provides (key : String) (entry : Cached) : Deed → Prop where
  | read {source : String} (made : entry.script = (Script.parse key source).script) :
      Provides key entry (asked key (.ok source))
  | inserted : Provides key entry (inserted key entry)

/-- After it no fault is left that is still to be told. -/
inductive Drains : Deed → Prop where
  | told {faults : List Fault} : Drains (told faults)
  | cleared : Drains cleared

/-- After it the script that was under a key is no longer there. -/
inductive Displaces (key : String) : Deed → Prop where
  | inserted {entry : Cached} : Displaces key (inserted key entry)
  | cleared : Displaces key cleared

end Deed

/-- What a log says of a cache that remembers what it has read. -/
structure Faithful (log : List Deed) : Prop where
  /-- Between two clears a script is read at most once. -/
  reads_once : ∀ before between later key, log = before ++ between ++ later →
    .cleared ∉ between → between.countP (Deed.reads key) ≤ 1
  /-- What is loaded was read or inserted, and nothing has come in its place since. -/
  source : ∀ before key entry later, log = before ++ .gave key (.ok entry) :: later →
    ∃ earlier deed since, before = earlier ++ deed :: since ∧ deed.Provides key entry ∧
      ∀ other ∈ since, ¬ other.Displaces key
  /-- After a load or an insertion every load gives the very same script, until it is displaced. -/
  same : ∀ before deed between key entry found later,
    log = before ++ deed :: between ++ .gave key found :: later →
    deed = .gave key (.ok entry) ∨ deed = .inserted key entry →
    (∀ other ∈ between, ¬ other.Displaces key) → found = .ok entry
  /-- A script is held just if it has come in since the last clear. -/
  checked : ∀ before key held later, log = before ++ .checked key held :: later →
    (held = true ↔ ∃ earlier deed since entry, before = earlier ++ deed :: since ∧
      deed.Provides key entry ∧ .cleared ∉ since)
  /-- What is told are the faults of the scripts read since they were last told or dropped, in
  order. -/
  told : ∀ before deed between faults later,
    log = before ++ deed :: between ++ .told faults :: later →
    deed.Drains → (∀ other ∈ between, ¬ other.Drains) → faults = between.flatMap Deed.faults

/-- What a single load, a single search and a look at a cache come to. -/
structure Answers (c : Cache) : Prop where
  load_fails : ∀ path c' f, c.load path = (c', .error f) →
    c'.scripts = c.scripts ∧ c'.faults = c.faults
  loadFirst_fails : ∀ paths c' f, c.loadFirst paths = (c', .error f) →
    c'.scripts = c.scripts ∧ c'.faults = c.faults
  load_finds : ∀ path,
    (c.load path).2.map Cached.script = c.finds (ScriptPath.normalize path)
  /-- A search loads the first path that is not missed: it has asked for the paths before it, and
  asks for none after it. -/
  first : ∀ earlier path later, (∀ other ∈ earlier, c.misses other = true) →
    c.misses path = false → ∃ c', c.Asks (earlier.map ScriptPath.normalize) c' ∧
      c.loadFirst (earlier ++ path :: later) = c'.load path
  /-- If every path is missed, the search has asked for all of them and says so. -/
  missed : ∀ paths, (∀ other ∈ paths, c.misses other = true) →
    ∃ c', c.Asks (paths.map ScriptPath.normalize) c' ∧
      c.loadFirst paths = (c', .error { cause := .noCandidate paths })
  /-- A script is held just if it is loaded without a question to the loader. -/
  contains_iff : ∀ path, c.contains path = true ↔ ∃ entry, c.load path = (c, .ok entry)
  /-- What is loaded is held, however its path is written, and nothing else comes in with it. -/
  contains_load : ∀ path c' entry, c.load path = (c', .ok entry) → ∀ other,
    (c'.contains other = true ↔
      c.contains other = true ∨ ScriptPath.normalize other = ScriptPath.normalize path)

/-- The cache with a script under a key whose text has just been read. -/
def learn (c : Cache) (key source : String) : Cache × Cached :=
  let parsed := Script.parse key source
  { c with reads := c.reads.push key, faults := c.faults ++ parsed.faults }.put key parsed.script

/-- One deed, between the cache it meets and the cache it leaves. -/
inductive Step (c : Cache) : Deed → Cache → Prop where
  | refused {key : String} {f : Fault} (absent : c.scripts.get? key = none)
      (fails : c.read key = .error f) :
      Step c (.asked key (.error f)) { c with reads := c.reads.push key }
  | read {key source : String} (absent : c.scripts.get? key = none)
      (has : c.read key = .ok source) :
      Step c (.asked key (.ok source)) (c.learn key source).1
  | gave {key : String} {entry : Cached} (held : c.scripts.get? key = some entry) :
      Step c (.gave key (.ok entry)) c
  | failed {key : String} {f : Fault} (absent : c.scripts.get? key = none) :
      Step c (.gave key (.error f)) c
  | inserted {key : String} {script : Script} :
      Step c (.inserted key (c.put key script).2) (c.put key script).1
  | checked {key : String} : Step c (.checked key (c.scripts.contains key)) c
  | told : Step c (.told c.faults) { c with faults := [] }
  | cleared : Step c .cleared c.clear
  | reloaded {read : String → Except Fault String} : Step c .reloaded { c with read }

inductive Does : Cache → List Deed → Cache → Prop where
  | nil {c : Cache} : Does c [] c
  | cons {c m c' : Cache} {deed : Deed} {log : List Deed} (step : Step c deed m)
      (rest : Does m log c') : Does c (deed :: log) c'

variable {c c' : Cache} {deed : Deed} {log log' : List Deed} {key path : String}
  {entry : Cached} {paths asked : List String} {f : Fault}

theorem get?_put (c : Cache) (key key' : String) (script : Script) :
    (c.put key script).1.scripts.get? key' =
      if key = key' then some (c.put key script).2 else c.scripts.get? key' :=
  Dict.get?_insert ..

theorem get?_learn (c : Cache) (key key' source : String) :
    (c.learn key source).1.scripts.get? key' =
      if key = key' then some (c.learn key source).2 else c.scripts.get? key' :=
  get?_put ..

theorem contains_put (c : Cache) (key : String) (script : Script) :
    (c.put key script).1.scripts.contains key = true := by
  rw [Dict.contains, get?_put, if_pos rfl, Option.isSome_some]

theorem contains_learn (c : Cache) (key source : String) :
    (c.learn key source).1.scripts.contains key = true :=
  contains_put ..

/-! What one deed does to what is held and to what is still to be told. -/

namespace Step

theorem holds (h : Step c deed c') (held : c.scripts.get? key = some entry)
    (hstays : ¬ deed.Displaces key) : c'.scripts.get? key = some entry := by
  cases h with
  | @read key' source absent has =>
    have hkey : key' ≠ key := by
      rintro rfl
      simp [absent] at held
    rw [get?_learn, if_neg hkey, held]
  | refused | gave | failed | checked | told | reloaded => exact held
  | @inserted key' script =>
    have hkey : key' ≠ key := by
      rintro rfl
      exact hstays .inserted
    rw [get?_put, if_neg hkey, held]
  | cleared => exact absurd .cleared hstays

theorem contains (h : Step c deed c') (held : c.scripts.contains key = true)
    (hstays : deed ≠ .cleared) : c'.scripts.contains key = true := by
  obtain ⟨entry, held⟩ := Option.isSome_iff_exists.mp held
  cases h with
  | inserted =>
    rw [Dict.contains, get?_put, held]
    split <;> rfl
  | cleared => exact absurd rfl hstays
  | read =>
    rw [Dict.contains, get?_learn, held]
    split <;> rfl
  | refused | gave | failed | checked | told | reloaded => exact Option.isSome_of_eq_some held

/-- What is held was there before, or it has come in just now. -/
theorem origin (h : Step c deed c') (held : c'.scripts.get? key = some entry) :
    deed.Provides key entry ∨ c.scripts.get? key = some entry ∧ ¬ deed.Displaces key := by
  cases h with
  | @read key' source absent has =>
    rw [get?_learn] at held
    split at held
    · next hkey =>
      obtain rfl := Option.some.inj held
      subst hkey
      exact .inl (.read rfl)
    · refine .inr ⟨held, ?_⟩
      rintro ⟨⟩
  | refused | gave | failed | checked | told | reloaded =>
    refine .inr ⟨held, ?_⟩
    rintro ⟨⟩
  | @inserted key' script =>
    rw [get?_put] at held
    split at held
    · next hkey =>
      obtain rfl := Option.some.inj held
      subst hkey
      exact .inl .inserted
    · next hkey =>
      refine .inr ⟨held, fun h => ?_⟩
      cases h
      exact hkey rfl
  | cleared => cases held

theorem provides (h : Step c deed c') (hdeed : deed.Provides key entry) :
    c'.scripts.contains key = true := by
  cases hdeed with
  | read made =>
    cases h
    exact contains_learn ..
  | inserted =>
    cases h
    exact contains_put ..

/-- A script is read only if it is not held, and then it is. -/
theorem reads (h : Step c deed c') (hdeed : deed.reads key = true) :
    c.scripts.contains key = false ∧ c'.scripts.contains key = true := by
  cases h with
  | @read key' source absent has =>
    obtain rfl : key' = key := of_decide_eq_true hdeed
    exact ⟨by rw [Dict.contains, absent, Option.isSome_none], contains_learn ..⟩
  | refused | gave | failed | inserted | checked | told | cleared | reloaded => cases hdeed

theorem faults (h : Step c deed c') (hstays : ¬ deed.Drains) :
    c'.faults = c.faults ++ deed.faults := by
  cases h with
  | read absent has => rfl
  | told => exact absurd .told hstays
  | cleared => exact absurd .cleared hstays
  | refused | gave | failed | inserted | checked | reloaded => exact (List.append_nil _).symm

theorem drains (h : Step c deed c') (hdeed : deed.Drains) : c'.faults = [] := by
  cases hdeed <;> cases h <;> rfl

end Step

/-! What a run does, deed by deed. -/

theorem does_cons : Does c (deed :: log) c' ↔ ∃ m, Step c deed m ∧ Does m log c' := by
  constructor
  · rintro ⟨⟩
    next m step rest => exact ⟨m, step, rest⟩
  · rintro ⟨m, step, rest⟩
    exact .cons step rest

theorem does_append : Does c (log ++ log') c' ↔ ∃ m, Does c log m ∧ Does m log' c' := by
  induction log generalizing c with
  | nil =>
    refine ⟨fun h => ⟨c, .nil, h⟩, ?_⟩
    rintro ⟨_, ⟨⟩, h⟩
    exact h
  | cons deed log ih =>
    simp only [List.cons_append, does_cons, ih]
    exact ⟨fun ⟨m, step, m', rest, h⟩ => ⟨m', ⟨m, step, rest⟩, h⟩,
      fun ⟨m', ⟨m, step, rest⟩, h⟩ => ⟨m, step, m', rest, h⟩⟩

theorem does_append_cons (h : Does c (log ++ deed :: log') c') :
    ∃ m m', Does c log m ∧ Step m deed m' ∧ Does m' log' c' := by
  obtain ⟨m, hlog, h⟩ := does_append.mp h
  obtain ⟨m', step, hlog'⟩ := does_cons.mp h
  exact ⟨m, m', hlog, step, hlog'⟩

namespace Does

/-- What every deed keeps that is not of a kind to end it is kept by a run of them. -/
theorem keeps {P : Cache → Prop} {Ends : Deed → Prop} (h : Does c log c')
    (hstep : ∀ {c deed c'}, Step c deed c' → P c → ¬ Ends deed → P c') (hc : P c)
    (hlog : ∀ other ∈ log, ¬ Ends other) : P c' := by
  induction h with
  | nil => exact hc
  | cons step rest ih =>
    obtain ⟨hfirst, hrest⟩ := List.forall_mem_cons.mp hlog
    exact ih (hstep step hc hfirst) hrest

theorem holds (h : Does c log c') (held : c.scripts.get? key = some entry)
    (hlog : ∀ other ∈ log, ¬ other.Displaces key) : c'.scripts.get? key = some entry :=
  h.keeps Step.holds held hlog

theorem contains (h : Does c log c') (held : c.scripts.contains key = true)
    (hlog : .cleared ∉ log) : c'.scripts.contains key = true :=
  h.keeps Step.contains held fun _ hother heq => hlog (heq ▸ hother)

theorem faults (h : Does c log c') (hlog : ∀ other ∈ log, ¬ other.Drains) :
    c'.faults = c.faults ++ log.flatMap Deed.faults := by
  induction h with
  | nil => exact (List.append_nil _).symm
  | cons step rest ih =>
    obtain ⟨hfirst, hrest⟩ := List.forall_mem_cons.mp hlog
    rw [ih hrest, step.faults hfirst, List.flatMap_cons, List.append_assoc]

theorem countP_reads (h : Does c log c') (hlog : .cleared ∉ log) :
    log.countP (Deed.reads key) ≤ if c.scripts.contains key then 0 else 1 := by
  induction h with
  | nil => simp
  | @cons c m c' deed log step rest ih =>
    obtain ⟨hfirst, hrest⟩ := List.ne_and_not_mem_of_not_mem_cons hlog
    have hcount := ih hrest
    rw [List.countP_cons]
    by_cases hreads : deed.reads key = true
    · obtain ⟨habsent, hheld⟩ := step.reads hreads
      rw [if_pos hheld] at hcount
      simp only [hreads, habsent]
      simpa using hcount
    · rw [if_neg hreads]
      by_cases hheld : c.scripts.contains key = true
      · rw [if_pos (step.contains hheld (Ne.symm hfirst))] at hcount
        rwa [if_pos hheld]
      · rw [if_neg hheld]
        exact Nat.le_trans hcount (by split <;> simp)

/-- What is held after a run from an empty cache has come in with one of its deeds. The induction
is from the last deed back. -/
theorem origin (h : Does c log c') (hempty : c.scripts = [])
    (held : c'.scripts.get? key = some entry) :
    ∃ earlier deed since, log = earlier ++ deed :: since ∧ deed.Provides key entry ∧
      ∀ other ∈ since, ¬ other.Displaces key := by
  induction log using List.reverseRecOn generalizing c' with
  | nil =>
    cases h
    rw [hempty] at held
    cases held
  | append_singleton log deed ih =>
    obtain ⟨m, hlog, hlast⟩ := does_append.mp h
    obtain ⟨_, step, ⟨⟩⟩ := does_cons.mp hlast
    rcases step.origin held with hdeed | ⟨held, hstays⟩
    · exact ⟨log, deed, [], rfl, hdeed, by simp⟩
    · obtain ⟨earlier, source, since, rfl, hsource, hsince⟩ := ih hlog held
      refine ⟨earlier, source, since ++ [deed], by simp, hsource, ?_⟩
      simpa [or_imp, forall_and] using ⟨hsince, hstays⟩

theorem faithful (h : Does c log c') (hempty : c.scripts = []) : Faithful log where
  reads_once before between later key hlog hclear := by
    rw [hlog, List.append_assoc] at h
    obtain ⟨m, -, h⟩ := does_append.mp h
    obtain ⟨m', hbetween, -⟩ := does_append.mp h
    exact Nat.le_trans (hbetween.countP_reads hclear) (by split <;> simp)
  source before key entry later hlog := by
    rw [hlog] at h
    obtain ⟨m, m', hbefore, step, -⟩ := does_append_cons h
    cases step with
    | gave held => exact hbefore.origin hempty held
  same before deed between key entry found later hlog hdeed hstays := by
    rw [hlog] at h
    obtain ⟨m₂, m₃, h, hlast, -⟩ := does_append_cons h
    obtain ⟨m, m₁, -, hfirst, hbetween⟩ := does_append_cons h
    have hheld : m₁.scripts.get? key = some entry := by
      rcases hdeed with rfl | rfl
      · cases hfirst with
        | gave held => exact held
      · cases hfirst with
        | inserted => rw [get?_put, if_pos rfl]
    have hheld := hbetween.holds hheld hstays
    cases hlast with
    | gave held => rw [Option.some.inj (held.symm.trans hheld)]
    | failed absent => cases absent.symm.trans hheld
  checked before key held later hlog := by
    rw [hlog] at h
    obtain ⟨m, m', hbefore, step, -⟩ := does_append_cons h
    cases step
    constructor
    · intro hheld
      obtain ⟨entry, hheld⟩ := Option.isSome_iff_exists.mp hheld
      obtain ⟨earlier, deed, since, hsplit, hdeed, hsince⟩ := hbefore.origin hempty hheld
      exact ⟨earlier, deed, since, entry, hsplit, hdeed, fun hclear => hsince _ hclear .cleared⟩
    · rintro ⟨earlier, deed, since, entry, rfl, hdeed, hsince⟩
      obtain ⟨m₁, m₂, -, hfirst, hrest⟩ := does_append_cons hbefore
      exact hrest.contains (hfirst.provides hdeed) hsince
  told before deed between faults later hlog hdeed hstays := by
    rw [hlog] at h
    obtain ⟨m₂, m₃, h, hlast, -⟩ := does_append_cons h
    obtain ⟨m, m₁, -, hfirst, hbetween⟩ := does_append_cons h
    cases hlast
    rw [hbetween.faults hstays, hfirst.drains hdeed, List.nil_append]

end Does

/-! A load, and a search, are made of such deeds. -/

theorem load_held (held : c.scripts.get? (ScriptPath.normalize path) = some entry) :
    c.load path = (c, .ok entry) := by
  simp only [load, held]

theorem load_refused (absent : c.scripts.get? (ScriptPath.normalize path) = none)
    (fails : c.read (ScriptPath.normalize path) = .error f) :
    c.load path = ({ c with reads := c.reads.push (ScriptPath.normalize path) }, .error f) := by
  simp only [load, absent, fails]

theorem load_read {source : String}
    (absent : c.scripts.get? (ScriptPath.normalize path) = none)
    (has : c.read (ScriptPath.normalize path) = .ok source) :
    c.load path = ((c.learn (ScriptPath.normalize path) source).1,
      .ok (c.learn (ScriptPath.normalize path) source).2) := by
  simp only [load, absent, has, learn]

theorem misses_iff : c.misses path = true ↔
    c.scripts.get? (ScriptPath.normalize path) = none ∧
      ∃ f, c.read (ScriptPath.normalize path) = .error f ∧ isNotFound f = true := by
  unfold misses finds
  cases c.scripts.get? (ScriptPath.normalize path) with
  | some entry => simp
  | none => cases c.read (ScriptPath.normalize path) <;> simp

/-- A path that is missed has the search go on, with one more question asked. -/
theorem loadAny_missed (h : c.misses path = true) (rest : List String) :
    c.loadAny (path :: rest) =
      { c with reads := c.reads.push (ScriptPath.normalize path) }.loadAny rest := by
  obtain ⟨absent, f, fails, hnot⟩ := misses_iff.mp h
  simp only [loadAny, load_refused absent fails, hnot, if_true]

theorem loadAny_stops (h : c.misses path = false) (rest : List String) :
    c.loadAny (path :: rest) = ((c.load path).1, some (c.load path).2) := by
  rw [loadAny]
  obtain ⟨-, hfound⟩ := c.load_finds path
  unfold misses at h
  rw [← hfound] at h
  generalize c.load path = loaded at h
  obtain ⟨c', found⟩ := loaded
  cases found with
  | ok entry => rfl
  | error f =>
    have hstop : isNotFound f = false := h
    simp only [hstop]
    rfl

theorem loadAny_skips (h : ∀ other ∈ paths, c.misses other = true) (later : List String) :
    ∃ c', c.Asks (paths.map ScriptPath.normalize) c' ∧
      c.loadAny (paths ++ later) = c'.loadAny later := by
  induction paths generalizing c with
  | nil => exact ⟨c, by simp [Asks], rfl⟩
  | cons path rest ih =>
    obtain ⟨hfirst, hrest⟩ := List.forall_mem_cons.mp h
    rw [List.cons_append, loadAny_missed hfirst]
    obtain ⟨c', hasks, hloads⟩ := ih (c := { c with reads := c.reads.push _ }) hrest
    refine ⟨c', ?_, hloads⟩
    rw [Asks] at hasks ⊢
    rw [hasks]
    simp

theorem loadFirst_skips {earlier : List String} (later : List String)
    (h : ∀ other ∈ earlier, c.misses other = true) (hpath : c.misses path = false) :
    ∃ c', c.Asks (earlier.map ScriptPath.normalize) c' ∧
      c.loadFirst (earlier ++ path :: later) = c'.load path := by
  obtain ⟨c', hasks, hloads⟩ := loadAny_skips h (path :: later)
  have hpath' : c'.misses path = false := by
    rw [hasks]
    exact hpath
  refine ⟨c', hasks, ?_⟩
  rw [loadFirst, hloads, loadAny_stops hpath']

theorem loadFirst_missed (h : ∀ other ∈ paths, c.misses other = true) :
    ∃ c', c.Asks (paths.map ScriptPath.normalize) c' ∧
      c.loadFirst paths = (c', .error { cause := .noCandidate paths }) := by
  obtain ⟨c', hasks, hloads⟩ := loadAny_skips h []
  rw [List.append_nil] at hloads
  refine ⟨c', hasks, ?_⟩
  rw [loadFirst, hloads, loadAny]

theorem load_cases (c : Cache) (path : String) :
    (∃ entry, c.scripts.get? (ScriptPath.normalize path) = some entry ∧
      c.load path = (c, .ok entry)) ∨
    (∃ f, c.scripts.get? (ScriptPath.normalize path) = none ∧
      c.read (ScriptPath.normalize path) = .error f ∧
      c.load path = ({ c with reads := c.reads.push (ScriptPath.normalize path) }, .error f)) ∨
    ∃ source, c.scripts.get? (ScriptPath.normalize path) = none ∧
      c.read (ScriptPath.normalize path) = .ok source ∧
      c.load path = ((c.learn (ScriptPath.normalize path) source).1,
        .ok (c.learn (ScriptPath.normalize path) source).2) := by
  cases held : c.scripts.get? (ScriptPath.normalize path) with
  | some entry => exact .inl ⟨entry, rfl, load_held held⟩
  | none =>
    cases hread : c.read (ScriptPath.normalize path) with
    | error f => exact .inr (.inl ⟨f, rfl, rfl, load_refused held hread⟩)
    | ok source => exact .inr (.inr ⟨source, rfl, rfl, load_read held hread⟩)

/-- To come to a script without a question is to have it. -/
theorem held_of_load (h : c.load path = (c, .ok entry)) : c.contains path = true := by
  rcases c.load_cases path with ⟨entry', held, -⟩ | ⟨f, -, -, hload⟩ | ⟨source, -, -, hload⟩
  · exact Option.isSome_of_eq_some held
  · simp [hload] at h
  · rw [hload, Prod.mk.injEq] at h
    have hreads := congrArg (·.reads.size) h.1
    simp [learn, put] at hreads

theorem contains_of_load (h : c.load path = (c', .ok entry)) (other : String) :
    c'.contains other = true ↔
      c.contains other = true ∨ ScriptPath.normalize other = ScriptPath.normalize path := by
  rcases c.load_cases path with ⟨entry', held, hload⟩ | ⟨f, -, -, hload⟩ | ⟨source, -, -, hload⟩
  · obtain ⟨rfl, -⟩ := Prod.mk.inj (h.symm.trans hload)
    refine ⟨.inl, fun hother => hother.elim id fun hother => ?_⟩
    rw [contains, hother]
    exact Option.isSome_of_eq_some held
  · cases h.symm.trans hload
  · obtain ⟨rfl, -⟩ := Prod.mk.inj (h.symm.trans hload)
    rw [contains, contains, Dict.contains, Dict.contains, get?_learn]
    split
    · next hkey => simp [hkey]
    · next hkey => simp [Ne.symm hkey]

theorem answers (c : Cache) : Answers c where
  load_fails path c' f h := by
    rw [load_asks h]
    exact ⟨rfl, rfl⟩
  loadFirst_fails paths c' f h := by
    obtain ⟨reads, rfl⟩ := loadFirst_error h
    exact ⟨rfl, rfl⟩
  load_finds path := (c.load_finds path).2
  first _ _ later := loadFirst_skips later
  missed _ := loadFirst_missed
  contains_iff path := by
    refine ⟨fun hheld => ?_, fun ⟨_, h⟩ => held_of_load h⟩
    obtain ⟨entry, held⟩ := Option.isSome_iff_exists.mp hheld
    exact ⟨entry, load_held held⟩
  contains_load _ _ _ := contains_of_load

theorem questions_of_reads (asked : List String) (h : c'.reads.toList = c.reads.toList ++ asked) :
    c.questions c' = asked.map fun key => .asked key (c.read key) := by
  rw [questions, h, ← Array.length_toList, List.drop_left]

theorem does_load (c : Cache) (path : String) :
    Does c (c.deeds (.load path)) (c.after (.load path)) := by
  simp only [deeds, after]
  rcases c.load_cases path with ⟨entry, held, hload⟩ | ⟨f, absent, fails, hload⟩ |
    ⟨source, absent, has, hload⟩
  · rw [hload, questions_of_reads [] (by simp)]
    exact .cons (.gave held) .nil
  · rw [hload, questions_of_reads [ScriptPath.normalize path] (by simp)]
    simp only [List.map_cons, fails]
    exact .cons (.refused absent fails) (.cons (.failed absent) .nil)
  · rw [hload, questions_of_reads [ScriptPath.normalize path] (by simp [learn, put])]
    simp only [List.map_cons, has]
    refine .cons (.read absent has) (.cons (.gave ?_) .nil)
    rw [get?_learn, if_pos rfl]

/-- The questions for paths that are missed change nothing, so each can be asked after the ones
before it as it would have been asked at first. -/
theorem does_asks (h : ∀ other ∈ paths, c.misses other = true)
    (hasks : c.Asks (paths.map ScriptPath.normalize) c') : Does c (c.questions c') c' := by
  rw [questions_of_reads _ hasks.reads]
  induction paths generalizing c with
  | nil =>
    rw [Asks] at hasks
    obtain rfl : c' = c := by simpa using hasks
    exact .nil
  | cons path rest ih =>
    obtain ⟨hfirst, hrest⟩ := List.forall_mem_cons.mp h
    obtain ⟨absent, f, fails, -⟩ := misses_iff.mp hfirst
    simp only [List.map_cons, fails]
    refine .cons (.refused absent fails) (ih hrest ?_)
    rw [Asks] at hasks ⊢
    rw [hasks]
    simp

theorem load_reads (c : Cache) (path : String) :
    ∃ asked, (c.load path).1.reads.toList = c.reads.toList ++ asked := by
  rcases c.load_cases path with ⟨entry, -, hload⟩ | ⟨f, -, -, hload⟩ | ⟨source, -, -, hload⟩
  · exact ⟨[], by simp [hload]⟩
  · exact ⟨[ScriptPath.normalize path], by simp [hload]⟩
  · exact ⟨[ScriptPath.normalize path], by simp [hload, learn, put]⟩

theorem does_loadFirst (c : Cache) (paths : List String) :
    Does c (c.deeds (.loadFirst paths)) (c.after (.loadFirst paths)) := by
  simp only [deeds, after]
  cases hfind : paths.find? fun path => !c.misses path with
  | none =>
    have hmissed : ∀ other ∈ paths, c.misses other = true := by
      simpa using List.find?_eq_none.mp hfind
    obtain ⟨c', hasks, hload⟩ := loadFirst_missed hmissed
    rw [hload, given, Option.toList_none, List.map_nil, List.append_nil]
    exact does_asks hmissed hasks
  | some path =>
    obtain ⟨hpath, earlier, later, rfl, hearlier⟩ := List.find?_eq_some_iff_append.mp hfind
    have hmissed : ∀ other ∈ earlier, c.misses other = true := by simpa using hearlier
    obtain ⟨c', hasks, hload⟩ := loadFirst_skips later hmissed (by simpa using hpath)
    obtain ⟨asked, hreads⟩ := c'.load_reads path
    have hquestions : c.questions (c'.load path).1 =
        c.questions c' ++ c'.questions (c'.load path).1 := by
      have hread : c'.read = c.read := by rw [hasks]
      rw [questions_of_reads _ hreads, questions_of_reads _ hasks.reads, hread, ← List.map_append]
      refine questions_of_reads _ ?_
      rw [hreads, hasks.reads, List.append_assoc]
    rw [hload, hquestions, List.append_assoc]
    exact does_append.mpr ⟨c', does_asks hmissed hasks, c'.does_load path⟩

theorem does_use (c : Cache) (use : Use) : Does c (c.deeds use) (c.after use) := by
  cases use with
  | load path => exact c.does_load path
  | loadFirst paths => exact c.does_loadFirst paths
  | insert script => exact .cons .inserted .nil
  | contains path => exact .cons .checked .nil
  | takeFaults => exact .cons .told .nil
  | clear => exact .cons .cleared .nil
  | changeLoader read => exact .cons .reloaded .nil

theorem does_history (c : Cache) (uses : List Use) : ∃ c', Does c (c.history uses) c' := by
  induction uses generalizing c with
  | nil => exact ⟨c, .nil⟩
  | cons use uses ih =>
    obtain ⟨c', hrest⟩ := ih (c.after use)
    exact ⟨c', does_append.mpr ⟨c.after use, c.does_use use, hrest⟩⟩

/-- A cache remembers: a log of whatever is done with a new one, from its first moment on, is
faithful. What a single use comes to holds of every cache. -/
theorem remembers :
    (∀ read uses, Faithful (.cleared :: ({ read } : Cache).history uses)) ∧ ∀ c, Answers c := by
  refine ⟨fun read uses => ?_, answers⟩
  obtain ⟨c', hdoes⟩ := ({ read } : Cache).does_history uses
  have hclear : Step { read } .cleared { read } := .cleared
  exact (hdoes.cons hclear).faithful rfl

example :
    let log := ({ read := fun _ => .ok "Return;" } : Cache).history
      [.load "A.txt", .changeLoader fun key => .error { cause := .noCandidate [key] },
        .loadFirst ["b.txt", ".\\A.TXT"]]
    log.length = 5 ∧ log.countP (Deed.reads "a.txt") = 1 := by
  decide +kernel

end Cache

end Cutscene
