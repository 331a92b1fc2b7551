import Cutscene.Engine.Host
import Cutscene.Proofs.Finding
import Cutscene.Proofs.NormalPaths
import Cutscene.ScriptFolder
import Cutscene.World.Recording

/-! Scripts looked up by their paths. A request of the host and a call look a path up alike: a path
that leads through a folder in one place, any other in several. What is looked up is normalized once
by the search and once more by the cache, which is one time more than a script that is stored. -/

namespace Cutscene

namespace ScriptPath

variable {target : String} {current : Option String} {map : String}

/-- A slash is left behind those that normalizing takes off the front. -/
def NamesFolder (target : String) : Prop := '/' ∈ inner target.toList

instance (target : String) : Decidable (NamesFolder target) := inferInstanceAs (Decidable (_ ∈ _))

theorem namesFolder_iff : NamesFolder target ↔ '/' ∈ (normalize target).toList :=
  slash_mem_normalize_iff.symm

theorem mem_dropRepeats {p : String} {paths : List String} : p ∈ dropRepeats paths ↔ p ∈ paths := by
  fun_induction dropRepeats paths with
  | case1 => rfl
  | case2 q => rfl
  | case3 q rest ih =>
    rw [ih, List.mem_cons (b := q) (l := q :: rest)]
    exact ⟨Or.inr, fun h => h.elim (fun heq => heq ▸ List.mem_cons_self) id⟩
  | case4 q r rest hne ih => rw [List.mem_cons, List.mem_cons, ih]

theorem candidates_of_folder (h : NamesFolder target) :
    candidates target current map = [normalize target] := by
  have hslash : (normalize target).toList.contains '/' = true :=
    List.contains_iff_mem.mpr (namesFolder_iff.mp h)
  rw [candidates, if_pos hslash]

theorem candidates_of_bare (h : ¬ NamesFolder target) :
    "script/common/" ++ normalize target ∈ candidates target current map := by
  have hslash : ¬ (normalize target).toList.contains '/' = true := by
    rwa [List.contains_iff_mem, ← namesFolder_iff]
  rw [candidates, if_neg hslash, mem_dropRepeats]
  simp

theorem candidates_eq_self_iff :
    candidates target current map = [normalize target] ↔ NamesFolder target := by
  constructor
  · intro hsingle
    by_contra hbare
    have hcommon : "script/common/" ++ normalize target ∈ candidates target current map :=
      candidates_of_bare hbare
    rw [hsingle, List.mem_singleton] at hcommon
    refine hbare (namesFolder_iff.mpr ?_)
    rw [← hcommon, String.toList_append]
    exact List.mem_append_left _ (by decide)
  · exact candidates_of_folder

end ScriptPath

open ScriptPath

theorem Script.parse_file (file source : String) : (parse file source).script.file = file := rfl

namespace Cache

/-- The cache holds nothing but what its loader has. -/
def Mirrors (c : Cache) : Prop :=
  ∀ key entry, c.scripts.get? key = some entry →
    ∃ source, c.read key = .ok source ∧ entry.script = (Script.parse key source).script

theorem Mirrors.finds_eq {c : Cache} (h : c.Mirrors) (key : String) :
    c.finds key = (c.read key).map fun source => (Script.parse key source).script := by
  unfold finds
  cases hheld : c.scripts.get? key with
  | none => rfl
  | some entry =>
    obtain ⟨source, hread, hscript⟩ := h key entry hheld
    simp only [hread, ok_map, hscript]

theorem Mirrors.load {c : Cache} (h : c.Mirrors) (path : String) : (c.load path).1.Mirrors := by
  unfold Cache.load
  generalize normalize path = key
  cases hheld : c.scripts.get? key with
  | some entry =>
    simp only [hheld]
    exact h
  | none =>
    cases hread : c.read key with
    | error f =>
      simp only [hheld, hread]
      exact h
    | ok source =>
      simp only [hheld, hread]
      intro key' entry hentry
      rw [put, Dict.get?_insert] at hentry
      split at hentry
      · next hkey =>
        subst hkey
        obtain rfl := Option.some.inj hentry
        exact ⟨source, hread, rfl⟩
      · exact h key' entry hentry

/-- A search that reads keeps a cache a mirror of its loader. -/
theorem Mirrors.loadFirst {c : Cache} (h : c.Mirrors) (paths : List String) :
    (c.loadFirst paths).1.Mirrors :=
  (loadFirst_induct (Q := fun _ => True) h paths (fun _ path h => ⟨h.load path, trivial⟩)
    fun _ => trivial).1

end Cache

namespace Shelf

theorem read_put (s : Shelf) (path source key : String) : (s.put path source).read key =
    if ScriptPath.normalize path = key then .ok source else s.read key := by
  unfold read put
  rw [Dict.get?_insert]
  by_cases hkey : ScriptPath.normalize path = key
  · simp only [hkey, if_true]
  · simp only [hkey, if_false]

end Shelf

namespace Engine

variable {ω : Type} [World ω] {e : Engine ω} {path : String} {script : Script} {f : Fault}

/-- What comes of looking a path up: the engine with all that was read, and the script. -/
def lookUp (e : Engine ω) (path : String) : Engine ω × Except Fault Script :=
  let found := e.scene.cache.loadFirst (e.candidates path)
  (e.withCache found.1, found.2.map Cached.script)

theorem lookUp_eq (e : Engine ω) (path : String) : (e.lookUp path).2 =
    (Cache.search e.scene.cache.finds (e.candidates path)).getD
      (.error { cause := .noCandidate (e.candidates path) }) := by
  obtain ⟨-, hfound⟩ := e.scene.cache.loadFirst_finds (e.candidates path)
  simp only [lookUp, hfound]

theorem runScript_eq (e : Engine ω) (path : String) (owner : Option Owner) :
    e.runScript path owner = match (e.lookUp path).2 with
      | .ok script => (e.lookUp path).1.reportLines.start script owner
      | .error f => (e.lookUp path).1.reportLines.failStart f := by
  unfold runScript lookUp
  generalize e.scene.cache.loadFirst (e.candidates path) = loaded
  obtain ⟨cache, found⟩ := loaded
  cases found with
  | ok entry => rfl
  | error f => rfl

theorem run_callScript (e : Engine ω) (path : String) (call : Call)
    (hroom : e.chain.depth + 1 ≤ e.options.maxDepth) :
    (Routine.callScript path).run call e = match (e.lookUp path).2 with
      | .ok script => .ok ((e.lookUp path).1.withChain (e.chain.enter script), .ok .jump)
      | .error f => .ok ((e.lookUp path).1, .error f) := by
  simp only [Routine.callScript, Routine.run, if_neg (Nat.not_lt.mpr hroom), lookUp, candidates,
    view]
  generalize e.scene.cache.loadFirst _ = loaded
  obtain ⟨cache, found⟩ := loaded
  cases found with
  | ok entry => rfl
  | error f => rfl

/-- The script is what the path stands for, both in a request of the host and in a call. -/
structure Starts (e : Engine ω) (path : String) (script : Script) : Prop where
  found : (e.lookUp path).2 = .ok script
  request : ∀ owner, e.runScript path owner = (e.lookUp path).1.reportLines.start script owner
  call : e.chain.depth + 1 ≤ e.options.maxDepth → ∀ call,
    (Routine.callScript path).run call e =
      .ok ((e.lookUp path).1.withChain (e.chain.enter script), .ok .jump)

/-- The path stands for no script, and both a request and a call of it fail. -/
structure StartsNone (e : Engine ω) (path : String) (f : Fault) : Prop where
  missing : (e.lookUp path).2 = .error f
  request : ∀ owner, e.runScript path owner = (e.lookUp path).1.reportLines.failStart f
  call : e.chain.depth + 1 ≤ e.options.maxDepth → ∀ call,
    (Routine.callScript path).run call e = .ok ((e.lookUp path).1, .error f)

theorem starts_iff : e.Starts path script ↔ (e.lookUp path).2 = .ok script := by
  refine ⟨Starts.found, fun hfound => ⟨hfound, fun owner => ?_, fun hroom call => ?_⟩⟩
  · rw [runScript_eq, hfound]
  · rw [run_callScript e path call hroom, hfound]

theorem startsNone_iff : e.StartsNone path f ↔ (e.lookUp path).2 = .error f := by
  refine ⟨StartsNone.missing, fun hmissing => ⟨hmissing, fun owner => ?_, fun hroom call => ?_⟩⟩
  · rw [runScript_eq, hmissing]
  · rw [run_callScript e path call hroom, hmissing]

/-- A path through a folder is looked up in one place, under its path normalized twice. -/
theorem lookUp_of_folder (h : NamesFolder path) (e : Engine ω) : (e.lookUp path).2 =
    match e.scene.cache.finds (normalize (normalize path)) with
    | .ok script => .ok script
    | .error f => .error
        (if Cache.isNotFound f then { cause := .noCandidate [normalize path] } else f) := by
  rw [lookUp_eq, Engine.candidates, candidates_of_folder h]
  simp only [Cache.search]
  cases e.scene.cache.finds (normalize (normalize path)) with
  | ok script => rfl
  | error f =>
    by_cases hnot : Cache.isNotFound f = true
    · simp [hnot]
    · simp [hnot]

theorem starts_of_folder_iff (h : NamesFolder path) : e.Starts path script ↔
    e.scene.cache.finds (normalize (normalize path)) = .ok script := by
  rw [starts_iff, lookUp_of_folder h]
  cases e.scene.cache.finds (normalize (normalize path)) with
  | ok found => rfl
  | error f => simp

end Engine

/-- A path is used as it is exactly if it leads through a folder, not counting what normalizing takes
off its front. Then no other script is started for it, and none if there is none at this path. -/
theorem folder_target_verbatim {ω : Type} [World ω] (target : String) (current : Option String)
    (map : String) :
    (candidates target current map = [normalize target] ↔ NamesFolder target) ∧
      (NamesFolder target → ∀ e : Engine ω,
        (∀ script, e.Starts target script ↔
          e.scene.cache.finds (normalize (normalize target)) = .ok script) ∧
        ∀ f, e.scene.cache.finds (normalize (normalize target)) = .error f →
          e.StartsNone target
            (if Cache.isNotFound f then { cause := .noCandidate [normalize target] } else f)) := by
  refine ⟨candidates_eq_self_iff, fun hfolder e => ⟨fun script => ?_, fun f hmissing => ?_⟩⟩
  · exact Engine.starts_of_folder_iff hfolder
  · rw [Engine.startsNone_iff, Engine.lookUp_of_folder hfolder, hmissing]

namespace Rehearsal

def noted : Engine Recording :=
  .ofRunner (.ofOptions [] {})
    { world := {}, cache := { read := Shelf.read [("loft/note", "Message(\"a\");")] } }

/-- A path with backslashes leads through its folder, whoever calls it and on whatever map. -/
theorem backslashes_verbatim : NamesFolder ".\\Loft\\Note" ∧
    candidates ".\\Loft\\Note" (some "cellar/main") "map/cellar.map" = ["loft/note"] ∧
    ∃ script, noted.Starts ".\\Loft\\Note" script ∧ script.file = "loft/note" := by
  have hfolder : NamesFolder ".\\Loft\\Note" := by decide +kernel
  have hkey : normalize ".\\Loft\\Note" = "loft/note" := by decide +kernel
  obtain ⟨hverbatim, hstarts⟩ := folder_target_verbatim (ω := Recording) ".\\Loft\\Note"
    (some "cellar/main") "map/cellar.map"
  obtain ⟨script, hfinds, hfile⟩ :
      ∃ script, noted.scene.cache.finds (normalize (normalize ".\\Loft\\Note")) = .ok script ∧
        script.file = "loft/note" := exists_ok (by decide +kernel)
  refine ⟨hfolder, ?_, script, ((hstarts hfolder noted).1 script).mpr hfinds, hfile⟩
  rw [hverbatim.mpr hfolder, hkey]

/-- A path at the root is looked for beside the caller first. -/
theorem rooted_target_sought : candidates "/note" (some "cellar/main") "" =
    ["cellar/note", "script/common/note", "note"] ∧ normalize "/note" = "note" := by
  decide +kernel

end Rehearsal

namespace Shelf

variable {shelf : Shelf} {path source : String} {c : Cache}

/-- A loader has what was stored under a path under its normal form. -/
theorem finds_stored (hread : c.read = (shelf.put path source).read) (hmirrors : c.Mirrors) :
    c.finds (normalize path) = .ok (Script.parse (normalize path) source).script := by
  rw [hmirrors.finds_eq, hread, read_put, if_pos rfl, ok_map]

/-- What is stored under a path is found again by its normal form just if that is its own. -/
theorem finds_stored_iff (hread : c.read = (shelf.put path source).read) (hmirrors : c.Mirrors) :
    c.finds (normalize (normalize path)) = .ok (Script.parse (normalize path) source).script ↔
      isLoose (normalize path).toList = false := by
  rw [← normalize_of_key (isKey_normalize path)]
  constructor
  · intro hfound
    rw [hmirrors.finds_eq] at hfound
    obtain ⟨text, -, hsame⟩ := map_eq_ok.mp hfound
    have hfile := congrArg Script.file hsame
    rwa [Script.parse_file, Script.parse_file] at hfile
  · intro hown
    rw [hown]
    exact finds_stored hread hmirrors

end Shelf

/-- A normal form is relative and has no backslash. It is its own normal form just if it begins with
no blank and no `./`, and just then the script that was stored under the path is also found by those
who normalize the path twice. -/
theorem stored_script_found {ω : Type} [World ω] (path : String) :
    ((normalize path).toList.head? ≠ some '/' ∧ '\\' ∉ (normalize path).toList) ∧
      (normalize (normalize path) = normalize path ↔ isLoose (normalize path).toList = false) ∧
      ∀ (shelf : Shelf) (source : String) (e : Engine ω),
        e.scene.cache.read = (shelf.put path source).read → e.scene.cache.Mirrors →
        let script := (Script.parse (normalize path) source).script
        (e.scene.cache.load path).2.map Cached.script = .ok script ∧
          ((e.scene.cache.load (normalize path)).2.map Cached.script = .ok script ↔
            isLoose (normalize path).toList = false) ∧
          ('/' ∈ (normalize path).toList →
            (e.Starts path script ↔ isLoose (normalize path).toList = false)) := by
  have hkey := isKey_normalize path
  refine ⟨⟨hkey.relative, hkey.forward⟩, normalize_of_key hkey, ?_⟩
  intro shelf source e hread hmirrors script
  refine ⟨?_, ?_, fun hslash => ?_⟩
  · rw [(e.scene.cache.load_finds path).2]
    exact Shelf.finds_stored hread hmirrors
  · rw [(e.scene.cache.load_finds (normalize path)).2]
    exact Shelf.finds_stored_iff hread hmirrors
  · rw [Engine.starts_of_folder_iff (namesFolder_iff.mpr hslash)]
    exact Shelf.finds_stored_iff hread hmirrors

namespace Rehearsal

/-- A note that is stored under a path with a dot behind its root. -/
def loft : Engine Recording :=
  .ofRunner (.ofOptions [] {})
    { world := {}, cache := { read := (Shelf.put [] "/./loft/note" "Message(\"a\");").read } }

def loftNote : Script := (Script.parse "./loft/note" "Message(\"a\");").script

theorem normalize_note : normalize "/./loft/note" = "./loft/note" := by decide +kernel

theorem loft_mirrors : loft.scene.cache.Mirrors := by
  rintro key entry ⟨⟩

theorem note_loaded_not_started :
    (loft.scene.cache.read = (Shelf.put [] "/./loft/note" "Message(\"a\");").read ∧
      loft.scene.cache.Mirrors ∧ '/' ∈ (normalize "/./loft/note").toList) ∧
      (loft.scene.cache.load "/./loft/note").2.map Cached.script = .ok loftNote ∧
      ¬ loft.Starts "/./loft/note" loftNote := by
  obtain ⟨-, -, hstored⟩ := stored_script_found (ω := Recording) "/./loft/note"
  obtain ⟨hload, -, hstarts⟩ := hstored [] "Message(\"a\");" loft rfl loft_mirrors
  rw [normalize_note] at hload hstarts ⊢
  refine ⟨⟨rfl, loft_mirrors, by decide⟩, hload, fun hnote => ?_⟩
  exact absurd ((hstarts (by decide)).mp hnote) (by decide)

/-- The normal form of a path is normalized to another path, under which the note is not there. -/
theorem note_lost : normalize "/./loft/note" = "./loft/note" ∧
    normalize (normalize "/./loft/note") = "loft/note" ∧
      loft.scene.cache.read = (Shelf.put [] "/./loft/note" "Message(\"a\");").read ∧
      ∃ f, loft.StartsNone "/./loft/note" f := by
  refine ⟨normalize_note, by decide +kernel, rfl, ?_⟩
  obtain ⟨f, hmissing⟩ : ∃ f, (loft.lookUp "/./loft/note").2 = .error f :=
    exists_error (by decide +kernel)
  exact ⟨f, Engine.startsNone_iff.mpr hmissing⟩

end Rehearsal

end Cutscene
