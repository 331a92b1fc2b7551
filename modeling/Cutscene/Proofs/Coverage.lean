import Cutscene.Program
import Cutscene.Proofs.Shelf
import Mathlib.Data.List.Dedup
import Mathlib.Data.List.Induction

/-! What a check covers. A script is known by its path in normal form, and of two files of a folder
with one normal form the one that the walk meets last stands for both. A check looks at one file for
each path, so it covers every file just where no two files share a path. -/

namespace Cutscene

namespace Dict

variable {α : Type} {pairs : List (String × α)} {x : String} {a : α}

/-- No later pair has the same key. -/
def IsLast (pairs : List (String × α)) (p : String × α) : Prop :=
  ∃ before behind, pairs = before ++ p :: behind ∧ p.1 ∉ behind.map Prod.fst

theorem ofPairs_concat (pairs : List (String × α)) (p : String × α) :
    ofPairs (pairs ++ [p]) = (ofPairs pairs).insert p.1 p.2 := by
  rw [ofPairs, List.foldl_append]
  rfl

theorem isLast_concat_self (pairs : List (String × α)) (p : String × α) :
    IsLast (pairs ++ [p]) p := ⟨pairs, [], rfl, List.not_mem_nil⟩

theorem isLast_concat_of_ne {p q : String × α} (h : q.1 ≠ p.1) :
    IsLast (pairs ++ [q]) p ↔ IsLast pairs p := by
  constructor
  · rintro ⟨before, behind, heq, hnot⟩
    rcases List.eq_nil_or_concat' behind with rfl | ⟨behind, r, rfl⟩
    · obtain ⟨-, hlast⟩ := List.append_inj' heq rfl
      have hpq : q = p := (List.cons.inj hlast).1
      exact absurd (congrArg Prod.fst hpq) h
    · have heq' : pairs ++ [q] = (before ++ p :: behind) ++ [r] := by
        rw [heq, List.append_assoc, List.cons_append]
      obtain ⟨hpairs, -⟩ := List.append_inj' heq' rfl
      refine ⟨before, behind, hpairs, fun hmem => hnot ?_⟩
      rw [List.map_append]
      exact List.mem_append_left _ hmem
  · rintro ⟨before, behind, rfl, hnot⟩
    refine ⟨before, behind ++ [q], by rw [List.append_assoc, List.cons_append], ?_⟩
    rw [List.map_append, List.mem_append, not_or]
    exact ⟨hnot, by simpa using Ne.symm h⟩

theorem get?_ofPairs_iff : get? (ofPairs pairs) x = some a ↔ IsLast pairs (x, a) := by
  induction pairs using List.reverseRecOn with
  | nil =>
    constructor
    · intro h
      cases h
    · rintro ⟨before, behind, heq, -⟩
      simp at heq
  | append_singleton pairs q ih =>
    rw [ofPairs_concat, get?_insert]
    by_cases hq : q.1 = x
    · rw [if_pos hq]
      constructor
      · intro h
        have hpair : q = (x, a) := Prod.ext hq (Option.some.inj h)
        rw [hpair]
        exact isLast_concat_self pairs (x, a)
      · rintro ⟨before, behind, heq, hnot⟩
        rcases List.eq_nil_or_concat' behind with rfl | ⟨behind, r, rfl⟩
        · obtain ⟨-, hlast⟩ := List.append_inj' heq rfl
          rw [(List.cons.inj hlast).1]
        · have heq' : pairs ++ [q] = (before ++ (x, a) :: behind) ++ [r] := by
            rw [heq, List.append_assoc, List.cons_append]
          obtain ⟨-, hlast⟩ := List.append_inj' heq' rfl
          have hqr : q = r := (List.cons.inj hlast).1
          exact absurd (by simp [← hqr, hq]) hnot
    · rw [if_neg hq, ih, isLast_concat_of_ne hq]

theorem mem_ofPairs_iff {p : String × α} : p ∈ ofPairs pairs ↔ IsLast pairs p := by
  obtain ⟨x, a⟩ := p
  rw [← get?_ofPairs_iff]
  exact ⟨get?_of_mem (sorted_ofPairs pairs), mem_of_get?⟩

theorem exists_isLast (h : x ∈ pairs.map Prod.fst) : ∃ a, IsLast pairs (x, a) := by
  induction pairs using List.reverseRecOn with
  | nil => cases h
  | append_singleton pairs q ih =>
    by_cases hq : q.1 = x
    · subst hq
      exact ⟨q.2, isLast_concat_self pairs q⟩
    · rw [List.map_append, List.mem_append] at h
      have hmem : x ∈ pairs.map Prod.fst :=
        h.resolve_right fun hx => hq (List.mem_singleton.mp hx).symm
      obtain ⟨a, ha⟩ := ih hmem
      exact ⟨a, (isLast_concat_of_ne hq).mpr ha⟩

theorem Sorted.nodup_keys {m : Dict String α} (h : Sorted m) : m.keys.Nodup := by
  rw [keys, List.Nodup, List.pairwise_map]
  refine h.imp ?_
  intro p q hlt heq
  rw [heq] at hlt
  exact String.lt_irrefl _ hlt

theorem mem_keys_ofPairs : x ∈ (ofPairs pairs).keys ↔ x ∈ pairs.map Prod.fst := by
  rw [mem_keys]
  constructor
  · rintro ⟨a, ha⟩
    obtain ⟨before, behind, rfl, -⟩ := get?_ofPairs_iff.mp ha
    simp
  · intro h
    obtain ⟨a, ha⟩ := exists_isLast h
    exact ⟨a, get?_ofPairs_iff.mpr ha⟩

/-- A map has as many pairs as there are keys among those that it is made of. -/
theorem length_ofPairs (pairs : List (String × α)) :
    (ofPairs pairs).length = (pairs.map Prod.fst).dedup.length := by
  have hsame : (ofPairs pairs).keys.Perm (pairs.map Prod.fst).dedup := by
    rw [List.perm_ext_iff_of_nodup (sorted_ofPairs pairs).nodup_keys (List.nodup_dedup _)]
    intro x
    rw [mem_keys_ofPairs, List.mem_dedup]
  rw [← hsame.length_eq, keys, List.length_map]

theorem isLast_of_nodup {p : String × α} (h : (pairs.map Prod.fst).Nodup) (hp : p ∈ pairs) :
    IsLast pairs p := by
  obtain ⟨before, behind, rfl⟩ := List.append_of_mem hp
  refine ⟨before, behind, rfl, ?_⟩
  rw [List.map_append, List.map_cons] at h
  exact (List.nodup_cons.mp h.of_append_right).1

theorem IsLast.mem {p : String × α} (h : IsLast pairs p) : p ∈ pairs := by
  obtain ⟨before, behind, rfl, -⟩ := h
  simp

end Dict

namespace Check

variable {table : CommandTable} {file source : String}

/-- A text of which every line is read and every call is one that the table takes. -/
def Passes (table : CommandTable) (source : String) : Prop :=
  ∀ file, (Script.parse file source).faults = [] ∧
    ∀ i ∈ (Script.parse file source).script.instructions, table.check i = .ok ()

theorem fault?_eq_none_iff {i : Instruction} :
    fault? table file i = none ↔ table.check i = .ok () := by
  unfold fault?
  cases table.check i with
  | ok u => simp
  | error cause => simp

theorem faults_eq_nil_iff : faults table file source = [] ↔ Passes table source := by
  have hhere : faults table file source = [] ↔ (Script.parse file source).faults = [] ∧
      ∀ i ∈ (Script.parse file source).script.instructions, table.check i = .ok () := by
    rw [faults, List.append_eq_nil_iff, List.filterMap_eq_nil_iff]
    simp only [fault?_eq_none_iff]
  rw [hhere]
  constructor
  · rintro ⟨hlines, hcalls⟩ file'
    rw [Script.parse_faults_eq_nil_iff, Script.parse_instructions] at *
    exact ⟨hlines, hcalls⟩
  · intro h
    exact h file

theorem isClean_iff {shelf : Shelf} :
    (scripts table shelf).isClean = true ↔ ∀ p ∈ shelf, Passes table p.2 := by
  simp only [Report.isClean, scripts, List.isEmpty_iff, List.flatMap_eq_nil_iff, faults_eq_nil_iff]

theorem head?_lines (r : Report) : r.lines.head? = some "RESULT:OK" ↔ r.isClean = true := by
  cases hclean : r.isClean with
  | true => simp [Report.lines, hclean]
  | false => simp [Report.lines, hclean]

end Check

namespace ScriptFolder

def isScriptFile (file : List String × Option String) : Bool :=
  isScriptName (file.1.getLast?.getD "")

/-- A file can be read, and this is its path in normal form with its text. -/
def IsScriptOf (root : String) (file : List String × Option String) (script : String × String) :
    Prop :=
  ScriptPath.normalize ("/".intercalate file.1) = script.1 ∧
    Disk.readMet (below root file.1) file.2 = .ok script.2

/-- All scripts below a place can be read, and a walk meets them in this order. -/
def Holds (d : Disk) (root : String) (place : Disk.Place)
    (scripts : List (String × String)) : Prop :=
  List.Forall₂ (IsScriptOf root) ((d.filesBelow place).filter isScriptFile) scripts

theorem texts_of_holds {root : String} {files : List (List String × Option String)}
    {scripts : List (String × String)}
    (h : List.Forall₂ (IsScriptOf root) (files.filter isScriptFile) scripts) :
    ∃ found, texts root files = .ok found ∧
      found.map (fun p => (ScriptPath.normalize p.1, p.2)) = scripts := by
  induction files generalizing scripts with
  | nil =>
    cases h
    exact ⟨[], rfl, rfl⟩
  | cons file files ih =>
    obtain ⟨names, text⟩ := file
    by_cases hscript : isScriptFile (names, text) = true
    · rw [List.filter_cons_of_pos hscript] at h
      obtain ⟨⟨path, source⟩, rest, ⟨hpath, hread⟩, hrest, rfl⟩ := List.forall₂_cons_left_iff.mp h
      obtain ⟨found, hfound, hmap⟩ := ih hrest
      refine ⟨("/".intercalate names, source) :: found, ?_, by rw [List.map_cons, hmap, hpath]⟩
      rw [isScriptFile] at hscript
      simp only [texts, hscript, hread, hfound, Bool.not_true, Bool.false_eq_true, if_false, ok_map]
    · rw [List.filter_cons_of_neg hscript] at h
      obtain ⟨found, hfound, hmap⟩ := ih h
      rw [isScriptFile] at hscript
      exact ⟨found, by simp [texts, hscript, hfound], hmap⟩

theorem load_of_holds {d : Disk} {dir : String} {place : Disk.Place}
    {scripts : List (String × String)} (hplace : d.locate (absolute d dir) = .ok place)
    (hfolder : d.isFolderAt place = true) (h : Holds d (absolute d dir) place scripts) :
    load d dir = if scripts = [] then .error { cause := .sourceEmpty (absolute d dir) }
      else .ok (Dict.ofPairs scripts) := by
  obtain ⟨found, hfound, hmap⟩ := texts_of_holds h
  have hshelf : Shelf.ofFiles found = Dict.ofPairs scripts := by rw [Shelf.ofFiles, ← hmap]
  simp only [load, hplace, hfolder, hfound, Bool.not_true, Bool.false_eq_true, if_false]
  cases found with
  | nil => rw [← hmap, List.map_nil, if_pos rfl]
  | cons p found =>
    have hsome : scripts ≠ [] := by
      rw [← hmap]
      exact List.cons_ne_nil _ _
    rw [if_neg hsome]
    exact congrArg Except.ok hshelf

end ScriptFolder

open Check ScriptFolder

/-- A check of a folder looks at one script for each path, the last that a walk meets: its result
is about these, and it counts these. Where no two scripts share a path it covers them all. -/
theorem check_covers_paths {d : Disk} {arguments : List String} {dir : String}
    {place : Disk.Place} {scripts : List (String × String)}
    (hasks : CommandLine.read arguments = .ok (.check dir))
    (hplace : d.locate (absolute d dir) = .ok place) (hfolder : d.isFolderAt place = true)
    (hholds : Holds d (absolute d dir) place scripts) :
    ∃ outcome, Program.run d arguments = .ok outcome ∧
      (outcome.lines.head? = some "RESULT:OK" ↔
        scripts ≠ [] ∧ ∀ p, Dict.IsLast scripts p → Passes .standard p.2) ∧
      (scripts ≠ [] → outcome.lines[1]? =
        some ("FILES:" ++ Decimal.text (scripts.map Prod.fst).dedup.length)) ∧
      ((scripts.map Prod.fst).Nodup →
        (outcome.lines.head? = some "RESULT:OK" ↔
          scripts ≠ [] ∧ ∀ p ∈ scripts, Passes .standard p.2) ∧
        (scripts ≠ [] → outcome.lines[1]? = some ("FILES:" ++ Decimal.text scripts.length))) := by
  have hload := load_of_holds hplace hfolder hholds
  by_cases hsome : scripts = []
  · rw [if_pos hsome] at hload
    refine ⟨Program.fail d { cause := .sourceEmpty (absolute d dir) }, ?_, ?_⟩
    · rw [Program.run, hasks]
      simp only [hload]
    · have herror : (Program.fail d { cause := .sourceEmpty (absolute d dir) }).lines.head? ≠
          some "RESULT:OK" := by
        simp [Program.fail, Fault.errorLines]
      simp only [hsome, ne_eq, not_true_eq_false, false_and, false_implies, and_true, herror,
        iff_self, implies_true]
  · rw [if_neg hsome] at hload
    let report := Check.scripts .standard (Dict.ofPairs scripts)
    have hresult : report.lines.head? = some "RESULT:OK" ↔
        ∀ p, Dict.IsLast scripts p → Passes .standard p.2 := by
      rw [head?_lines, isClean_iff]
      exact forall_congr' fun p => by rw [Dict.mem_ofPairs_iff]
    have hcount : report.lines[1]? =
        some ("FILES:" ++ Decimal.text (scripts.map Prod.fst).dedup.length) := by
      rw [← Dict.length_ofPairs]
      rfl
    refine ⟨⟨if report.isClean then 0 else 1, report.lines, d⟩, ?_, ?_, fun _ => hcount, ?_⟩
    · rw [Program.run, hasks]
      simp only [hload]
      rfl
    · rw [hresult]
      exact ⟨fun h => ⟨hsome, h⟩, And.right⟩
    · intro hnodup
      -- where all paths differ, each script is the last one of its path
      have hall : (∀ p, Dict.IsLast scripts p → Passes .standard p.2) ↔
          ∀ p ∈ scripts, Passes .standard p.2 :=
        forall_congr' fun p => ⟨fun h hp => h (Dict.isLast_of_nodup hnodup hp),
          fun h hp => h hp.mem⟩
      refine ⟨?_, fun _ => ?_⟩
      · rw [hresult, hall]
        exact ⟨fun h => ⟨hsome, h⟩, And.right⟩
      · rw [hcount, hnodup.dedup, List.length_map]

namespace Rehearsal

/-- Two scripts whose names differ in the case of one letter. -/
def twins : Disk where
  entries := [(["s"], .folder), (["s", "A.txt"], .file (some "???")),
    (["s", "a.txt"], .file (some "Message(\"a\");"))]

theorem holds_twins : Holds twins "/s" ["s"] [("a.txt", "???"), ("a.txt", "Message(\"a\");")] := by
  have hmet : (twins.filesBelow ["s"]).filter isScriptFile =
      [(["A.txt"], some "???"), (["a.txt"], some "Message(\"a\");")] := by decide +kernel
  rw [Holds, hmet]
  refine .cons ⟨by decide +kernel, ?_⟩ (.cons ⟨by decide +kernel, ?_⟩ .nil)
  · rfl
  · rfl

theorem asks_twins : CommandLine.read ["check", "--scripts-dir", "s"] = .ok (.check "s") := by rfl

theorem absolute_twins : absolute twins "s" = "/s" := by decide +kernel

theorem locate_twins : twins.locate (absolute twins "s") = .ok ["s"] := by
  rw [absolute_twins]
  rfl

/-- The walk meets two scripts, and the check counts one. -/
theorem twins_covered : Holds twins (absolute twins "s") ["s"]
      [("a.txt", "???"), ("a.txt", "Message(\"a\");")] ∧
    ∃ outcome, Program.run twins ["check", "--scripts-dir", "s"] = .ok outcome ∧
      outcome.lines[1]? = some "FILES:1" := by
  have hholds : Holds twins (absolute twins "s") ["s"]
      [("a.txt", "???"), ("a.txt", "Message(\"a\");")] := by
    rw [absolute_twins]
    exact holds_twins
  obtain ⟨outcome, hrun, -, hcount, -⟩ :=
    check_covers_paths asks_twins locate_twins (by rfl) hholds
  refine ⟨hholds, outcome, hrun, ?_⟩
  rw [hcount (List.cons_ne_nil _ _)]
  decide +kernel

theorem not_passes_noise : ¬ Passes .standard "???" := by
  intro h
  have hread : (Script.parse "" "???").faults ≠ [] := by decide +kernel
  exact hread (h "").1

/-- The check of two scripts of one path finds nothing wrong, though one of them cannot be read. -/
theorem faulty_twin_unchecked :
    (∃ outcome, Program.run twins ["check", "--scripts-dir", "s"] = .ok outcome ∧
      outcome.lines = ["RESULT:OK", "FILES:1", "INSTRUCTIONS:1"]) ∧
    (["A.txt"], some "???") ∈ (twins.filesBelow ["s"]).filter isScriptFile ∧
    (["a.txt"], some "Message(\"a\");") ∈ (twins.filesBelow ["s"]).filter isScriptFile ∧
    ¬ Passes .standard "???" := by
  refine ⟨exists_ok (by decide +kernel), by decide +kernel, by decide +kernel, not_passes_noise⟩

end Rehearsal

end Cutscene
