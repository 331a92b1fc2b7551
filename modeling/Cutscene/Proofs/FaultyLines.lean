import Cutscene.Proofs.Complaints
import Cutscene.Proofs.Finding
import Cutscene.Proofs.Reports

/-! Faulty lines. Whenever a script text is read, whoever had it read is told of each line that
cannot be read, once and at its place. Neither an engine nor a standard command complains of lines
on any other occasion. -/

namespace Cutscene

/-- Whether it is a line of a script text that is refused. -/
def Cause.isOfLine : Cause → Bool
  | .labelMalformed _ => true
  | .lineMalformed _ => true
  | .textUnterminated => true
  | .parenthesisUnclosed => true
  | _ => false

theorem Cause.isChecked_of_isOfLine {c : Cause} (h : c.isOfLine = true) : c.isChecked = true := by
  cases c with
  | labelMalformed line => rfl
  | lineMalformed line => rfl
  | textUnterminated => rfl
  | parenthesisUnclosed => rfl
  | _ => cases h

namespace Script

/-- Why line `i` of a text, counted from 0, cannot be read. -/
def refusal? (source : String) (i : Nat) : Option Cause :=
  (Text.lines (dropMark source.toList))[i]?.bind fun line =>
    if isIgnored (Text.trim line) then none
    else match readLine (Text.trim line) (i + 1) with
      | .ok _ => none
      | .error cause => some cause

def faultyLines (file source : String) : List Fault :=
  (List.range (Text.lines (dropMark source.toList)).length).filterMap fun i =>
    (refusal? source i).map fun cause => { cause, location := some ⟨file, i + 1⟩ }

theorem zipIdx_eq_filterMap {α : Type} (as : List α) (first : Nat) :
    as.zipIdx first = (List.range as.length).filterMap fun i => as[i]?.map (·, i + first) := by
  induction as generalizing first with
  | nil => rfl
  | cons a as ih =>
    rw [List.zipIdx_cons, ih, List.length_cons, List.range_succ_eq_map, List.filterMap_cons,
      List.filterMap_map]
    simp only [List.getElem?_cons_zero, Option.map_some, Nat.zero_add, Function.comp_def,
      Nat.succ_eq_add_one, List.getElem?_cons_succ, Nat.add_assoc, Nat.add_comm first 1]

theorem parse_faults (file source : String) :
    (parse file source).faults = faultyLines file source := by
  simp only [parse, readings, numbered, zipIdx_eq_filterMap, List.filterMap_map, List.length_map,
    List.getElem?_map, List.filterMap_filter, List.filterMap_filterMap, faultyLines]
  congr 1
  funext i
  unfold refusal?
  generalize (Text.lines (dropMark source.toList))[i]? = line?
  cases line? with
  | none => rfl
  | some line =>
    by_cases hignored : isIgnored (Text.trim line) = true
    · simp [hignored]
    · cases hread : readLine (Text.trim line) (i + 1) with
      | ok instruction => simp [hignored, hread, fault?]
      | error cause => simp [hignored, hread, fault?]

theorem filterMap_range_eq {α : Type} (n i : Nat) (a? : Option α) :
    ((List.range n).filterMap fun j => if j = i then a? else none) =
      if i < n then a?.toList else [] := by
  induction n with
  | zero => rfl
  | succ n ih =>
    rw [List.range_succ, List.filterMap_append, ih]
    by_cases hlast : n = i
    · cases a? <;> simp [hlast]
    · have hless : i < n + 1 ↔ i < n := by omega
      simp [hlast, hless]

/-- A line has one fault if it cannot be read, and else none. -/
theorem faultyLines_at (file source : String) (i : Nat) :
    (faultyLines file source).filter (·.location = some ⟨file, i + 1⟩) =
      ((refusal? source i).map fun cause => ⟨cause, some ⟨file, i + 1⟩⟩).toList := by
  have hat : ∀ j, ((refusal? source j).map fun cause : Cause =>
      (⟨cause, some ⟨file, j + 1⟩⟩ : Fault)).filter (·.location = some ⟨file, i + 1⟩) =
        if j = i then (refusal? source i).map fun cause => ⟨cause, some ⟨file, i + 1⟩⟩
        else none := by
    intro j
    by_cases hj : j = i
    · subst hj
      cases refusal? source j <;> simp [Option.filter]
    · cases refusal? source j <;> simp [Option.filter, hj]
  simp only [faultyLines, List.filter_filterMap, hat, filterMap_range_eq]
  split
  · rfl
  · next hbeyond =>
    have hnone : refusal? source i = none := by
      rw [refusal?, List.getElem?_eq_none (Nat.not_lt.mp hbeyond), Option.bind_none]
    rw [hnone]
    rfl

theorem splitClosing_error {n : Nesting} {s : List Char} {cause : Cause}
    (h : splitClosing n s = .error cause) : cause.isOfLine = true := by
  induction s generalizing n with
  | nil =>
    rw [splitClosing, Except.error.injEq] at h
    subst h
    split
    · rfl
    · rfl
  | cons c s ih =>
    rw [splitClosing] at h
    split at h
    · cases h
    · split at h
      · cases h
      · next hrest =>
        obtain rfl := Except.error.inj h
        exact ih hrest

theorem arguments_error {raw : List Char} {cause : Cause} (h : arguments raw = .error cause) :
    cause.isOfLine = true := by
  unfold arguments at h
  split at h
  · cases h
  · split at h
    · obtain rfl := Except.error.inj h
      rfl
    · cases h

theorem parametersOf_error {s : List Char} {cause : Cause} (h : parametersOf s = .error cause) :
    cause.isOfLine = true := by
  unfold parametersOf at h
  split at h
  · rcases bind_eq_error.mp h with hsplit | ⟨split, -, h⟩
    · exact splitClosing_error hsplit
    · rcases bind_eq_error.mp h with harguments | ⟨_, -, h⟩
      · exact arguments_error harguments
      · cases h
  · cases h

theorem readLine_error {line : List Char} {number : Nat} {cause : Cause}
    (h : readLine line number = .error cause) : cause.isOfLine = true := by
  unfold readLine at h
  split at h
  · split at h
    · cases h
    · obtain rfl := Except.error.inj h
      rfl
  · split at h
    · rcases bind_eq_error.mp h with hparameters | ⟨_, -, h⟩
      · exact parametersOf_error hparameters
      · cases h
    · obtain rfl := Except.error.inj h
      rfl

theorem isOfLine_of_refusal? {source : String} {i : Nat} {cause : Cause}
    (h : refusal? source i = some cause) : cause.isOfLine = true := by
  obtain ⟨line, -, h⟩ := Option.bind_eq_some_iff.mp h
  split at h
  · cases h
  · split at h
    · cases h
    · next hread =>
      obtain rfl := Option.some.inj h
      exact readLine_error hread

theorem isOfLine_of_mem {file source : String} {f : Fault} (h : f ∈ faultyLines file source) :
    f.cause.isOfLine = true := by
  obtain ⟨i, -, hi⟩ := List.mem_filterMap.mp h
  obtain ⟨cause, hrefusal, rfl⟩ := Option.map_eq_some_iff.mp hi
  exact isOfLine_of_refusal? hrefusal

end Script

def CommandTable.States (t : CommandTable) (cause : Cause) : Prop :=
  ∃ v command f, t.resolve v.call = .ok command ∧ command.handler v = .error f ∧ f.cause = cause

theorem CommandTable.standard_states {cause : Cause} (h : standard.States cause) :
    cause.isOfLine = false := by
  obtain ⟨v, command, f, hresolves, hrefuses, rfl⟩ := h
  refine Bool.eq_false_iff.mpr fun hline => ?_
  obtain ⟨rfl, -, -⟩ :=
    standard_refused hresolves hrefuses (Cause.isChecked_of_isOfLine hline)
  cases hline

theorem Fault.cause_located (f : Fault) (file : String) (line : Nat) :
    (f.located file line).cause = f.cause := by
  unfold located
  split
  · rfl
  · rfl

/-- What happens while a chain runs, as far as texts are read or faults are told. -/
inductive Notice where
  | given (file source : String)
  | parsed (path source : String)
  | refused (path : String)
  | told (f : Fault)

namespace Notice

def path? : Notice → Option String
  | parsed path _ => some path
  | refused path => some path
  | _ => none

def given? : Notice → Option (String × String)
  | given file source => some (file, source)
  | _ => none

def faults : Notice → List Fault
  | given file source => Script.faultyLines file source
  | parsed path source => Script.faultyLines path source
  | refused _ => []
  | told f => [f]

/-- A notice that is true of a command table and a loader. Only these two ever state on their own
that a line is refused. -/
inductive Holds (table : CommandTable) (read : String → Except Fault String) : Notice → Prop where
  | given {file source : String} : Holds table read (.given file source)
  | parsed {path source : String} (reads : read path = .ok source) :
      Holds table read (.parsed path source)
  | refused {path : String} {f : Fault} (refuses : read path = .error f) :
      Holds table read (.refused path)
  | own {f : Fault} (own : f.cause.isOfLine = false) : Holds table read (.told f)
  | stated {f : Fault} (states : table.States f.cause) : Holds table read (.told f)
  | loader {f f' : Fault} {path : String} (refuses : read path = .error f')
      (same : f'.cause = f.cause) : Holds table read (.told f)

theorem Holds.located {table : CommandTable} {read : String → Except Fault String} {f : Fault}
    (h : Holds table read (.told f)) (file : String) (line : Nat) :
    Holds table read (.told (f.located file line)) := by
  have hcause := f.cause_located file line
  cases h with
  | own own => exact .own (hcause ▸ own)
  | stated states => exact .stated (hcause ▸ states)
  | loader refuses same => exact .loader refuses (same.trans hcause.symm)

end Notice

namespace Cache

/-- What was asked of the loader of a cache, with the faults that the cache keeps of it. -/
structure Reads (c : Cache) (table : CommandTable) (log : List Notice) (c' : Cache) : Prop where
  read : c'.read = c.read
  asked : c'.reads.toList = c.reads.toList ++ log.filterMap Notice.path?
  kept : c'.faults = c.faults ++ log.flatMap Notice.faults
  given : log.filterMap Notice.given? = []
  holds : ∀ n ∈ log, n.Holds table c.read

variable {table : CommandTable} {c c' c'' : Cache} {log log' : List Notice}

theorem Reads.refl (table : CommandTable) (c : Cache) : c.Reads table [] c :=
  ⟨rfl, by simp, by simp, rfl, by simp⟩

theorem Reads.trans (h : c.Reads table log c') (h' : c'.Reads table log' c'') :
    c.Reads table (log ++ log') c'' where
  read := h'.read.trans h.read
  asked := by rw [h'.asked, h.asked, List.filterMap_append, List.append_assoc]
  kept := by rw [h'.kept, h.kept, List.flatMap_append, List.append_assoc]
  given := by rw [List.filterMap_append, h.given, h'.given, List.append_nil]
  holds n hn := by
    rcases List.mem_append.mp hn with hn | hn
    · exact h.holds n hn
    · exact h.read ▸ h'.holds n hn

theorem reads_load (table : CommandTable) (c : Cache) (path : String) :
    ∃ log, c.Reads table log (c.load path).1 ∧
      ∀ f, (c.load path).2 = .error f → ∃ key, c.read key = .error f := by
  unfold load
  dsimp only
  split
  · exact ⟨[], .refl table c, fun _ hf => by cases hf⟩
  · split
    · next f hrefused =>
      refine ⟨[.refused (ScriptPath.normalize path)], ⟨rfl, ?_, ?_, rfl, ?_⟩, fun f' hf' => ?_⟩
      · simp [Notice.path?]
      · simp [Notice.faults]
      · simpa using Notice.Holds.refused hrefused
      · exact ⟨_, Except.error.inj hf' ▸ hrefused⟩
    · next source hread =>
      refine ⟨[.parsed (ScriptPath.normalize path) source], ⟨rfl, ?_, ?_, rfl, ?_⟩,
        fun _ hf => by cases hf⟩
      · simp [put, Notice.path?]
      · simp [put, Notice.faults, Script.parse_faults]
      · simpa using Notice.Holds.parsed hread

theorem reads_loadFirst (table : CommandTable) (c : Cache) (paths : List String) :
    ∃ log, c.Reads table log (c.loadFirst paths).1 ∧
      ∀ f, (c.loadFirst paths).2 = .error f → Notice.Holds table c.read (.told f) := by
  have hload : ∀ c' path, (∃ log, c.Reads table log c') →
      (∃ log, c.Reads table log (c'.load path).1) ∧
        ∀ f, (c'.load path).2 = .error f → Notice.Holds table c.read (.told f) := by
    rintro c' path ⟨log, hreads⟩
    obtain ⟨log', hreads', herror⟩ := reads_load table c' path
    refine ⟨⟨log ++ log', hreads.trans hreads'⟩, fun f hf => ?_⟩
    obtain ⟨key, hrefused⟩ := herror f hf
    exact .loader (hreads.read ▸ hrefused) rfl
  have hmissing : ∀ paths f, (.error { cause := .noCandidate paths } : Except Fault Cached) =
      .error f → Notice.Holds table c.read (.told f) := by
    intro paths f hf
    obtain rfl := Except.error.inj hf
    exact .own rfl
  obtain ⟨⟨log, hreads⟩, herror⟩ := loadFirst_induct
    (P := fun c' => ∃ log, c.Reads table log c')
    (Q := fun found => ∀ f, found = .error f → Notice.Holds table c.read (.told f))
    ⟨[], .refl table c⟩ paths hload hmissing
  exact ⟨log, hreads, herror⟩

end Cache

namespace Engine

variable {ω : Type}

/-- What a chain reads and is told on the way from one engine to another. -/
structure Notes (e : Engine ω) (texts : List (String × String)) (log : List Notice)
    (e' : Engine ω) : Prop where
  table : e'.table = e.table
  read : e'.scene.cache.read = e.scene.cache.read
  asked : e'.scene.cache.reads.toList =
    e.scene.cache.reads.toList ++ log.filterMap Notice.path?
  told : e'.diagnostics.toList = e.diagnostics.toList ++ log.flatMap Notice.faults
  given : log.filterMap Notice.given? = texts
  holds : ∀ n ∈ log, n.Holds e.table e.scene.cache.read

variable {e e' e'' : Engine ω} {texts texts' : List (String × String)} {log log' : List Notice}
  {f : Fault}

theorem Notes.of_eq (htable : e'.table = e.table) (hcache : e'.scene.cache = e.scene.cache)
    (hdiagnostics : e'.diagnostics = e.diagnostics) : e.Notes [] [] e' :=
  ⟨htable, by rw [hcache], by simp [hcache], by simp [hdiagnostics], rfl, by simp⟩

theorem Notes.trans (h : e.Notes texts log e') (h' : e'.Notes texts' log' e'') :
    e.Notes (texts ++ texts') (log ++ log') e'' where
  table := h'.table.trans h.table
  read := h'.read.trans h.read
  asked := by rw [h'.asked, h.asked, List.filterMap_append, List.append_assoc]
  told := by rw [h'.told, h.told, List.flatMap_append, List.append_assoc]
  given := by rw [List.filterMap_append, h.given, h'.given]
  holds n hn := by
    rcases List.mem_append.mp hn with hn | hn
    · exact h.holds n hn
    · exact h.table ▸ h.read ▸ h'.holds n hn

theorem notes_report (h : Notice.Holds e.table e.scene.cache.read (.told f)) :
    e.Notes [] [.told f] (e.report f) :=
  ⟨rfl, rfl, by simp [Notice.path?], by simp [report, Notice.faults], rfl, by simpa using h⟩

theorem notes_yield (e : Engine ω) (p : Position) (i : Instruction) :
    ∃ log, e.Notes [] log (e.yield p i) := by
  unfold yield
  split
  · exact ⟨[], .of_eq rfl rfl rfl⟩
  · exact ⟨_, notes_report (.own rfl)⟩

theorem notes_skipFaulty {file : String} {call : Call}
    (h : Notice.Holds e.table e.scene.cache.read (.told f)) :
    ∃ log, e.Notes [] log (e.skipFaulty file call f) :=
  ⟨_, (notes_report (h.located file call.line)).trans (.of_eq rfl rfl rfl)⟩

/-- Where no faults are left from before, the chain takes over just those of what was read. -/
theorem notes_reportLines (htaken : e.scene.cache.faults = []) (htable : e'.table = e.table)
    (hdiagnostics : e'.diagnostics = e.diagnostics)
    (h : e.scene.cache.Reads e.table log e'.scene.cache) : e.Notes [] log e'.reportLines := by
  rw [reportLines_eq]
  exact ⟨htable, h.read, h.asked, by simp [hdiagnostics, h.kept, htaken], h.given, h.holds⟩

theorem notes_follow {file : String} {call : Call} {course : Except Fault Course}
    (h : e.Notes [] log e'.reportLines)
    (hown : ∀ f, course = .error f → Notice.Holds e.table e.scene.cache.read (.told f)) :
    ∃ log, e.Notes [] log (e'.follow file call course) := by
  have hskip : ∀ f, Notice.Holds e.table e.scene.cache.read (.told f) →
      ∃ log, e.Notes [] log (e'.reportLines.skipFaulty file call f) := by
    intro f hf
    rw [← h.table, ← h.read] at hf
    obtain ⟨log', hnotes⟩ := notes_skipFaulty hf
    exact ⟨_, h.trans hnotes⟩
  cases course with
  | error f => exact hskip f (hown f rfl)
  | ok course =>
    cases course with
    | next => exact ⟨_, h.trans (.of_eq rfl rfl rfl)⟩
    | moved => exact ⟨_, h⟩
    | entered =>
      have hannounced : e'.reportLines.Notes [] [] e'.reportLines.announce :=
        .of_eq (by simp) (by simp) (by simp)
      exact ⟨_, h.trans hannounced⟩
    | parked => exact ⟨_, h⟩
    | stalled => exact hskip _ (.own rfl)

variable [World ω]

theorem Acts.reads {action : Action} {course : Except Fault Course}
    (h : e.Acts action e' course) :
    ∃ log, e.scene.cache.Reads e.table log e'.scene.cache ∧
      ∀ f, course = .error f → Notice.Holds e.table e.scene.cache.read (.told f) := by
  cases h with
  | @run target cache entry room found inside =>
    obtain ⟨log, hreads, -⟩ := e.scene.cache.reads_loadFirst e.table (e.candidates target)
    rw [found] at hreads
    exact ⟨log, hreads, fun _ hf => by cases hf⟩
  | @runFirst target cache entry room found lost =>
    obtain ⟨log, hreads, -⟩ := e.scene.cache.reads_loadFirst e.table (e.candidates target)
    rw [found] at hreads
    exact ⟨log, hreads, fun _ hf => by cases hf⟩
  | @runNothing target reads f missing =>
    obtain ⟨log, hreads, herror⟩ := e.scene.cache.reads_loadFirst e.table (e.candidates target)
    rw [missing] at hreads herror
    exact ⟨log, hreads, fun f' hf' => Except.error.inj hf' ▸ herror f rfl⟩
  | talkEmpty lines =>
    exact ⟨[], .refl _ _, fun f hf => Except.error.inj hf ▸ .own rfl⟩
  | jumpNowhere => exact ⟨[], .refl _ _, fun f hf => Except.error.inj hf ▸ .own rfl⟩
  | jumpLost lost => exact ⟨[], .refl _ _, fun f hf => Except.error.inj hf ▸ .own rfl⟩
  | runTooDeep full => exact ⟨[], .refl _ _, fun f hf => Except.error.inj hf ▸ .own rfl⟩
  | _ => exact ⟨[], .refl _ _, fun _ hf => by cases hf⟩

theorem notes_dispatched {file : String} {call : Call} (htaken : e.scene.cache.faults = [])
    (h : e.Dispatched file call e') : ∃ log, e.Notes [] log e' := by
  cases h with
  | @unresolved cause unknown =>
    refine notes_skipFaulty (.own ?_)
    rcases CommandTable.resolve_eq_error unknown with rfl | ⟨c, rfl⟩
    · rfl
    · rfl
  | @refused command f resolves refuses =>
    have hnotes := notes_reportLines htaken rfl rfl (.refl e.table e.scene.cache)
    refine notes_follow hnotes fun f' hf' => ?_
    obtain rfl := Except.error.inj hf'
    exact .stated ⟨e.view call, command, f, resolves, refuses, rfl⟩
  | @acted action e₁ course asks acts =>
    obtain ⟨log, hreads, hown⟩ := acts.reads
    exact notes_follow (notes_reportLines htaken (acts_frame acts).1 acts.diagnostics hreads) hown

theorem notes_step {p : Position} {i : Instruction} (htaken : e.scene.cache.faults = [])
    (h : e.step p i = .ok e') : ∃ log, e.Notes [] log e' := by
  cases i with
  | marker name literal line =>
    obtain ⟨-, rfl⟩ := step_marker_eq_ok.mp h
    exact ⟨[], .of_eq rfl rfl rfl⟩
  | call call =>
    have hobserved : e.Notes [] [] (e.observe (.reached p.script.file p.line)) :=
      .of_eq (by simp) (by simp) (by simp)
    obtain ⟨log, hnotes⟩ := notes_dispatched (by simpa using htaken) (dispatched_of_dispatch h)
    exact ⟨_, hobserved.trans hnotes⟩

end Engine

open Engine

variable {ω : Type} [World ω] {s t : Phase ω} {e e' : Engine ω} {r : Request ω} {o : Opening ω}

theorem Round.notes (htaken : s.engine.scene.cache.faults = []) (h : Round s t) :
    ∃ log, s.engine.Notes [] log t.engine := by
  cases h with
  | halt held => exact ⟨[], .of_eq rfl rfl rfl⟩
  | leave free runs ended leaves => exact ⟨[], .of_eq rfl rfl rfl⟩
  | finish free ended alone => exact ⟨[], .of_eq rfl rfl rfl⟩
  | yield free stands next => exact notes_yield _ _ _
  | step free stands next ran => exact notes_step htaken ran

theorem Rounds.notes (htaken : s.engine.scene.cache.faults = []) (h : Rounds s t) :
    ∃ log, s.engine.Notes [] log t.engine := by
  induction h with
  | refl => exact ⟨[], .of_eq rfl rfl rfl⟩
  | tail rounds round ih =>
    obtain ⟨log, hnotes⟩ := ih
    obtain ⟨log', hnotes'⟩ := round.notes ((Rounds.keeps rounds).taken htaken)
    exact ⟨_, hnotes.trans hnotes'⟩

/-- The texts that the host brings with a request. -/
def Request.texts : Request ω → List (String × String)
  | .runContent file source _ => [(ScriptPath.normalize file, source)]
  | _ => []

/-- Whether a request leaves alone what was told before, and the cache to the chain. -/
def Request.isPlain : Request ω → Bool
  | .takeDiagnostics => false
  | .setCache .. => false
  | _ => true

namespace Engine

omit [World ω] in
theorem notes_starts (e : Engine ω) (script : Script) (owner : Option Owner) :
    ∃ log, e.Notes [] log (e.starts script owner).phase.engine := by
  unfold starts
  split
  · exact ⟨_, notes_report (.own rfl)⟩
  · exact ⟨[], .of_eq (by simp [Phase.begun, Phase.engine]) (by simp [Phase.begun, Phase.engine])
      (by simp [Phase.begun, Phase.engine]; rfl)⟩

omit [World ω] in
theorem notes_foldl_report (e : Engine ω) (file source : String) :
    e.Notes [(file, source)] [.given file source]
      ((Script.faultyLines file source).foldl report e) := by
  rw [foldl_report]
  exact ⟨rfl, rfl, by simp [Notice.path?], by simp [Notice.faults], rfl,
    by simpa using Notice.Holds.given⟩

omit [World ω] in
theorem notes_found {paths : List String} {cache : Cache} {found : Except Fault Cached}
    (htaken : e.scene.cache.faults = []) (h : e.scene.cache.loadFirst paths = (cache, found)) :
    ∃ log, e.Notes [] log (e.withCache cache).reportLines ∧
      ∀ f, found = .error f →
        Notice.Holds (e.withCache cache).reportLines.table
          (e.withCache cache).reportLines.scene.cache.read (.told f) := by
  obtain ⟨log, hreads, herror⟩ := e.scene.cache.reads_loadFirst e.table paths
  rw [h] at hreads herror
  have hnotes : e.Notes [] log (e.withCache cache).reportLines :=
    notes_reportLines htaken rfl rfl hreads
  exact ⟨log, hnotes, by rwa [hnotes.table, hnotes.read]⟩

theorem Opened.notes (h : e.Opened r o) (htaken : e.scene.cache.faults = [])
    (hplain : r.isPlain = true) : ∃ log, e.Notes r.texts log o.phase.engine := by
  cases h with
  | @run path owner cache entry found =>
    obtain ⟨log, hnotes, -⟩ := notes_found htaken found
    obtain ⟨log', hstarts⟩ := notes_starts (e.withCache cache).reportLines entry.script owner
    exact ⟨_, hnotes.trans hstarts⟩
  | @runNothing path owner cache f missing inside =>
    obtain ⟨log, hnotes, hown⟩ := notes_found htaken missing
    have htold : (e.withCache cache).reportLines.Notes [] [.told f]
        ((e.withCache cache).reportLines.report f) := notes_report (hown f rfl)
    exact ⟨_, hnotes.trans htold⟩
  | @runNothingIdle path owner cache f missing outside =>
    obtain ⟨log, hnotes, hown⟩ := notes_found htaken missing
    have hended : (e.withCache cache).reportLines.Notes [] []
        ((e.withCache cache).reportLines.withChain e.chain.finish) := .of_eq rfl rfl rfl
    have htold : ((e.withCache cache).reportLines.withChain e.chain.finish).Notes [] [.told f]
        (((e.withCache cache).reportLines.withChain e.chain.finish).report f) :=
      notes_report (hown f rfl)
    exact ⟨_, (hnotes.trans hended).trans htold⟩
  | @runContent file source owner parsed parses =>
    rw [← parses, Script.parse_faults]
    obtain ⟨log, hstarts⟩ := notes_starts ((Script.faultyLines (ScriptPath.normalize file)
      source).foldl report e) (Script.parse (ScriptPath.normalize file) source).script owner
    exact ⟨_, (notes_foldl_report e (ScriptPath.normalize file) source).trans hstarts⟩
  | takeDiagnostics => cases hplain
  | setCache => cases hplain
  | _ => exact ⟨[], .of_eq rfl rfl rfl⟩

/-- A plain request tells a chain of the lines of what is read for it, and of no other lines. -/
theorem notes_of_answer {result : Except Fault Unit} (htaken : e.scene.cache.faults = [])
    (hplain : r.isPlain = true) (h : e.answer r = .ok (e', result)) :
    ∃ log, e.Notes r.texts log e' := by
  obtain ⟨o, hopen, -, hrounds⟩ := answer_eq_ok_iff.mp h
  have hopened := opened_of_opening hopen
  obtain ⟨log, hnotes⟩ := hopened.notes htaken hplain
  obtain ⟨log', hnotes'⟩ := Rounds.notes (hopened.opens.2.taken htaken) hrounds
  exact ⟨_, List.append_nil r.texts ▸ hnotes.trans hnotes'⟩

theorem taken_of_serve {rs : List (Request ω)} (htaken : e.scene.cache.faults = [])
    (h : serve rs e = .ok e') : e'.scene.cache.faults = [] := by
  induction rs generalizing e with
  | nil =>
    obtain rfl := Except.ok.inj h
    exact htaken
  | cons r rs ih =>
    obtain ⟨⟨e₁, result⟩, hanswer, hrest⟩ := bind_eq_ok.mp h
    exact ih ((keeps_of_answer hanswer).taken htaken) hrest

end Engine

end Cutscene
