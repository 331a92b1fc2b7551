import Cutscene.Proofs.Candidates
import Cutscene.Proofs.Coverage
import Cutscene.Proofs.Frames

/-! The entry of a run without a player. It is looked up as a call on no map would be, so a script of
its name in the common folder is found before the one that is stored under the entry itself. -/

namespace Cutscene

open ScriptPath

namespace Shelf

variable {scripts : Shelf} {path : String}

/-- What a loader holds of some scripts is under the normal forms of their paths. -/
theorem get?_ofFiles (h : path ∈ scripts.keys) :
    ∃ text, (Shelf.ofFiles scripts).get? (normalize path) = some text := by
  refine Dict.mem_keys.mp (Dict.mem_keys_ofPairs.mpr ?_)
  obtain ⟨p, hp, rfl⟩ := List.mem_map.mp h
  rw [List.map_map]
  exact List.mem_map_of_mem hp

/-- A script is not replaced by another one if there is none that has the same normal form. -/
theorem get?_of_get?_ofFiles {text : String} (hsorted : scripts.Sorted)
    (hown : ∀ other ∈ scripts.keys, normalize other = normalize path → other = path)
    (h : (Shelf.ofFiles scripts).get? (normalize path) = some text) :
    scripts.get? path = some text := by
  obtain ⟨⟨other, source⟩, hmem, hsame⟩ := List.mem_map.mp (Dict.get?_ofPairs_iff.mp h).mem
  obtain ⟨hnormal, rfl⟩ := Prod.mk.inj hsame
  obtain rfl := hown other (List.mem_map_of_mem hmem) hnormal
  exact Dict.get?_of_mem hsorted hmem

end Shelf

namespace Headless

variable {scripts : Shelf} {vars : Dict String Int32} {options : Options} {plan : Plan}
  {script : Script} {text : String}

/-- The engine on which a run starts its entry. -/
def opener (scripts : Shelf) (vars : Dict String Int32) (options : Options) : Engine Recording :=
  .ofRunner (.ofOptions .standard options) (stage scripts vars)

/-- A run from the start of its entry on. -/
def runFrom (scripts : Shelf) (vars : Dict String Int32) (options : Options) (plan : Plan)
    (started : Except (Crash Recording) (Engine.Answer Recording)) : Except Halt Report := do
  let director := Director.ofOptions options (stage scripts vars)
  let director ← demand (started.map fun a => (director.restore none a.1, a.2))
  let (ending, p) ← Headless.frames plan.frameMs plan.maxFrames { director, choices := plan.choices }
  return report plan ending p

/-- The entry of a run stands for the script, and the run goes on from its start. -/
structure Enters (scripts : Shelf) (vars : Dict String Int32) (options : Options) (plan : Plan)
    (script : Script) : Prop where
  starts : (opener scripts vars options).Starts plan.entry script
  run : run scripts vars options plan = runFrom scripts vars options plan
    (((opener scripts vars options).lookUp plan.entry).1.reportLines.start script none)

theorem run_eq (scripts : Shelf) (vars : Dict String Int32) (options : Options) (plan : Plan) :
    run scripts vars options plan = runFrom scripts vars options plan
      ((opener scripts vars options).runScript plan.entry none) := by
  have hstart : (Director.ofOptions options (stage scripts vars)).onChain none
      (·.answer (.run plan.entry none)) = _ := Director.onChain_global
  have hanswer : (Director.ofOptions options (stage scripts vars)).engine.answer
      (.run plan.entry none) = (opener scripts vars options).runScript plan.entry none := rfl
  rw [runFrom, ← hanswer, ← hstart]
  rfl

theorem enters_iff : Enters scripts vars options plan script ↔
    ((opener scripts vars options).lookUp plan.entry).2 = .ok script := by
  rw [← Engine.starts_iff]
  refine ⟨Enters.starts, fun hstarts => ⟨hstarts, ?_⟩⟩
  rw [run_eq, hstarts.request none]

theorem finds_opener (scripts : Shelf) (vars : Dict String Int32) (options : Options)
    (key : String) : (opener scripts vars options).scene.cache.finds key =
      ((Shelf.ofFiles scripts).read key).map fun source => (Script.parse key source).script := by
  refine Cache.Mirrors.finds_eq ?_ key
  rintro key entry ⟨⟩

theorem finds_of_get? {key : String} (vars : Dict String Int32) (options : Options)
    (h : (Shelf.ofFiles scripts).get? key = some text) :
    (opener scripts vars options).scene.cache.finds key = .ok (Script.parse key text).script := by
  rw [finds_opener, Shelf.read, h]
  rfl

theorem finds_of_none {key : String} (vars : Dict String Int32) (options : Options)
    (h : (Shelf.ofFiles scripts).get? key = none) :
    ∃ f, (opener scripts vars options).scene.cache.finds key = .error f ∧
      Cache.isNotFound f = true := by
  rw [finds_opener, Shelf.read, h]
  exact ⟨_, rfl, decide_eq_true rfl⟩

theorem candidates_opener (h : '/' ∉ (normalize plan.entry).toList) :
    (opener scripts vars options).candidates plan.entry =
      [below "script/common" (normalize plan.entry), normalize plan.entry] := by
  have hmap : onMap (normalize plan.entry) "" = [] := by
    have hnone : mapName "" = [] := by decide +kernel
    rw [onMap_eq, if_pos hnone]
  have hnodup : (onMap (normalize plan.entry) "" ++ _).Nodup := nodup_elsewhere h
  have heq : candidates plan.entry none "" = _ := candidates_eq (mt namesFolder_iff.mp h)
  rw [elsewhere, hmap] at heq
  rw [hmap] at hnodup
  exact heq.trans (dropRepeats_of_nodup hnodup)

/-- A name is looked for in the common folder first. -/
theorem lookUp_common (vars : Dict String Int32) (options : Options)
    (hbare : '/' ∉ (normalize plan.entry).toList)
    (h : (Shelf.ofFiles scripts).get? (below "script/common" (normalize plan.entry)) = some text) :
    ((opener scripts vars options).lookUp plan.entry).2 =
      .ok (Script.parse (below "script/common" (normalize plan.entry)) text).script := by
  rw [Engine.lookUp_eq, candidates_opener hbare]
  simp only [Cache.search, normalize_common (isKey_normalize _), finds_of_get? vars options h,
    Option.getD_some]

theorem lookUp_own (vars : Dict String Int32) (options : Options)
    (hfree : '/' ∈ (normalize plan.entry).toList ∨
      (Shelf.ofFiles scripts).get? (below "script/common" (normalize plan.entry)) = none)
    (h : (Shelf.ofFiles scripts).get? (normalize (normalize plan.entry)) = some text) :
    ((opener scripts vars options).lookUp plan.entry).2 =
      .ok (Script.parse (normalize (normalize plan.entry)) text).script := by
  have hfinds := finds_of_get? vars options h
  by_cases hslash : '/' ∈ (normalize plan.entry).toList
  · rw [Engine.lookUp_of_folder (namesFolder_iff.mpr hslash), hfinds]
  · obtain ⟨f, hmissing, hnot⟩ := finds_of_none vars options (hfree.resolve_left hslash)
    rw [Engine.lookUp_eq, candidates_opener hslash]
    simp only [Cache.search, normalize_common (isKey_normalize _), hmissing, hnot, if_true, hfinds,
      Option.getD_some]

/-- What is stored under the entry of a run is started exactly if the entry leads through a folder or
the common folder has no script of this name; if it has one, that is started. -/
theorem entry_started (scripts : Shelf) (vars : Dict String Int32) (options : Options) (plan : Plan)
    (hheld : normalize plan.entry ∈ scripts.keys) :
    let key := normalize plan.entry
    let held := Shelf.ofFiles scripts
    ∃ text, held.get? (normalize key) = some text ∧
      (Enters scripts vars options plan (Script.parse (normalize key) text).script ↔
        '/' ∈ key.toList ∨ held.get? ("script/common/" ++ key) = none) ∧
      (∀ other, '/' ∉ key.toList → held.get? ("script/common/" ++ key) = some other →
        Enters scripts vars options plan (Script.parse ("script/common/" ++ key) other).script) ∧
      (scripts.Sorted → (∀ path ∈ scripts.keys, normalize path = normalize key → path = key) →
        scripts.get? key = some text) := by
  intro key held
  obtain ⟨text, htext⟩ := Shelf.get?_ofFiles hheld
  refine ⟨text, htext, ⟨fun henters => ?_, fun hfree => ?_⟩, fun other hbare hother => ?_,
    fun hsorted hown => Shelf.get?_of_get?_ofFiles hsorted hown htext⟩
  · by_contra hshadowed
    obtain ⟨hbare, hcommon⟩ := not_or.mp hshadowed
    obtain ⟨other, hother⟩ := Option.ne_none_iff_exists'.mp hcommon
    have hboth := (enters_iff.mp henters).symm.trans (lookUp_common vars options hbare hother)
    have hfile := congrArg Script.file (Except.ok.inj hboth)
    rw [Script.parse_file, Script.parse_file] at hfile
    exact below_ne (slash_not_mem_normalize (isKey_normalize plan.entry) hbare) hfile.symm
  · exact enters_iff.mpr (lookUp_own vars options hfree htext)
  · exact enters_iff.mpr (lookUp_common vars options hbare hother)

end Headless

namespace Rehearsal

open Headless

def lobby : Shelf :=
  [("lobby", "Message(\"Welcome.\");"), ("script/common/attic", "Message(\"Dust.\");")]

def visit : Headless.Plan := { entry := "./Lobby" }

theorem lobby_entered : normalize visit.entry ∈ lobby.keys ∧
    Enters lobby [] {} visit (Script.parse "lobby" "Message(\"Welcome.\");").script := by
  have hheld : normalize visit.entry ∈ lobby.keys := by decide +kernel
  obtain ⟨text, -, hown, -, hstored⟩ := entry_started lobby [] {} visit hheld
  have hsorted : lobby.Sorted := by
    unfold Dict.Sorted
    decide
  have htext : lobby.get? (normalize visit.entry) = some text :=
    hstored hsorted (by decide +kernel)
  have hkey : normalize visit.entry = "lobby" := by decide +kernel
  have hagain : normalize "lobby" = "lobby" := by decide +kernel
  refine ⟨hheld, ?_⟩
  rw [hkey] at htext hown
  obtain rfl : "Message(\"Welcome.\");" = text := Option.some.inj htext
  rw [hagain] at hown
  exact hown.mpr (Or.inr (by decide +kernel))

def attic : Shelf :=
  [("main", "Message(\"asked\");"), ("script/common/main", "Message(\"other\");")]

def asking : Headless.Plan := { entry := "main" }

/-- The run starts another script than the one that is stored under its entry. -/
theorem other_entry_started : attic.get? (normalize asking.entry) = some "Message(\"asked\");" ∧
    ¬ Enters attic [] {} asking (Script.parse "main" "Message(\"asked\");").script ∧
    ∃ r, Headless.run attic [] {} asking = .ok r ∧
      (r.entry, r.calls) = ("main", ["message other"]) := by
  refine ⟨by decide +kernel, fun henters => ?_, exists_ok (by decide +kernel)⟩
  obtain ⟨script, hlookUp, hfile⟩ : ∃ script, ((opener attic [] {}).lookUp asking.entry).2 =
      .ok script ∧ script.file = "script/common/main" := exists_ok (by decide +kernel)
  obtain rfl := Except.ok.inj (hlookUp.symm.trans (enters_iff.mp henters))
  rw [Script.parse_file] at hfile
  exact absurd hfile (by decide)

end Rehearsal

end Cutscene
