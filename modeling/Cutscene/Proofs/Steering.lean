import Cutscene.Proofs.Avoiding
import Cutscene.Proofs.Complaints
import Mathlib.Data.List.Nodup

/-! Commands that steer a chain. Of the standard commands only four take it anywhere but to the next
line: a jump, a branch, a return, and the call of a script. -/

namespace Cutscene

/-- Whether an action takes the chain to a line other than the next one, or to another script. -/
def Action.steers : Action → Bool
  | .jump _ => true
  | .run _ => true
  | .goBack => true
  | _ => false

/-- The names, in small letters, of the commands that may steer. -/
def CommandTable.steering : List String := ["goto", "if", "return", "runscript"]

def Call.maySteer (c : Call) : Bool :=
  CommandTable.steering.contains (CommandTable.key c.name)

namespace Command

theorem sleep_steady (v : View) : Avoids Action.steers (sleep v) :=
  sleep_avoids rfl (fun _ => rfl) v

theorem control_steady : ∀ c ∈ control, CommandTable.key c.name ∈ CommandTable.steering ∨
    ∀ v, Avoids Action.steers (c.handler v) := by
  have hfour : ["Goto", "If", "Return", "RunScript"].map CommandTable.key =
      CommandTable.steering := by decide
  rw [← hfour]
  simp [control, assign, update, draw, Action.steers, sleep_steady]

theorem speech_steady : ∀ c ∈ speech, ∀ v, Avoids Action.steers (c.handler v) := by
  simp [speech, say, talk, message, choose, chooseMultiple, Action.steers]

theorem deleteOwner_steady (v : View) : Avoids Action.steers (deleteOwner v) :=
  deleteOwner_avoids (fun _ => rfl) v

theorem playSound_steady (v : View) : Avoids Action.steers (playSound v) :=
  playSound_avoids (fun _ _ => rfl) v

theorem scenery_steady : ∀ c ∈ scenery, ∀ v, Avoids Action.steers (c.handler v) := by
  simp [scenery, onText, onInteger, onOptionalText, plain, awaited, place, setObjectScript,
    setTrap, pan, tint, Action.steers, deleteOwner_steady, playSound_steady]

theorem cast_steady : ∀ c ∈ cast, ∀ v, Avoids Action.steers (c.handler v) := by
  simp [cast, onText, onInteger, plain, place, onActorInteger, setNpcScript, onActor, showNpc,
    placeNpc, placePlayer, moveNpc, movePlayer, actNpc, actPlayer, started, animated,
    Action.steers]

theorem holdings_steady : ∀ c ∈ holdings, ∀ v, Avoids Action.steers (c.handler v) := by
  simp [holdings, onText, onInteger, plain, onGoods, readMoney, readGoods, openTrade,
    setTimeScript, Action.steers]

end Command

namespace CommandTable

/-- What a standard command of another name asks for takes the chain to the next line at most. -/
theorem standard_steady {v : View} {c : Command} {action : Action}
    (hresolves : standard.resolve v.call = .ok c) (hasks : c.handler v = .ok action)
    (hname : v.call.maySteer = false) : action.steers = false := by
  obtain ⟨hc, hkey⟩ := standard_listed (resolve_eq_ok hresolves).1
  rcases hc with hc | hc | hc | hc | hc
  · rcases Command.control_steady c hc with hsteers | hsteady
    · rw [hkey] at hsteers
      simp [Call.maySteer, hsteers] at hname
    · exact hsteady v action hasks
  · exact Command.speech_steady c hc v action hasks
  · exact Command.scenery_steady c hc v action hasks
  · exact Command.cast_steady c hc v action hasks
  · exact Command.holdings_steady c hc v action hasks

theorem isSome_find?_foldl_register {cs : List Command} {t : CommandTable} {name : String}
    (h : (∃ c ∈ cs, key c.name = key name) ∨ (t.find? name).isSome = true) :
    ((cs.foldl register t).find? name).isSome = true := by
  induction cs generalizing t with
  | nil => simpa using h
  | cons first cs ih =>
    refine ih ?_
    by_cases hfirst : key first.name = key name
    · right
      simp [register, find?, Dict.get?_insert, hfirst]
    · rcases h with ⟨c, hc, hkey⟩ | hsome
      · rcases List.mem_cons.mp hc with rfl | hc
        · exact absurd hkey hfirst
        · exact Or.inl ⟨c, hc, hkey⟩
      · right
        simpa [register, find?, Dict.get?_insert, hfirst] using hsome

theorem standard_keys_nodup : ((Command.control ++ Command.speech ++ Command.scenery ++
    Command.cast ++ Command.holdings).map fun c => key c.name).Nodup := by decide +kernel

/-- No two standard commands go by one name. -/
theorem standard_unique {found c : Command} {name : String} (h : standard.find? name = some found)
    (hc : c ∈ Command.control ++ Command.speech ++ Command.scenery ++ Command.cast ++
      Command.holdings) (hname : key name = key c.name) : found = c := by
  obtain ⟨hfound, hsame⟩ := (find?_foldl_register h).resolve_right (by simp [find?])
  exact List.inj_on_of_nodup_map standard_keys_nodup hfound hc (hsame.trans hname)

/-- A call by the name of a standard command is a call of that command. -/
theorem standard_resolve {c : Command} {call : Call}
    (hc : c ∈ Command.control ++ Command.speech ++ Command.scenery ++ Command.cast ++
      Command.holdings) (hname : key call.name = key c.name)
    (haccepts : c.arity.accepts call.parameters.length = true) :
    standard.resolve call = .ok c := by
  obtain ⟨found, hfind⟩ := Option.isSome_iff_exists.mp
    (isSome_find?_foldl_register (t := []) (Or.inl ⟨c, hc, hname.symm⟩))
  have hstandard : standard.find? call.name = some found := hfind
  obtain rfl : found = c := standard_unique hstandard hc hname
  rw [resolve, hstandard]
  exact if_pos haccepts

theorem standard_goto {call : Call} (hname : key call.name = "goto")
    (hone : call.parameters.length = 1) :
    standard.resolve call = .ok ⟨"Goto", .exactly 1, Command.goto⟩ :=
  standard_resolve (by simp [Command.control]) (hname.trans (by decide)) (by rw [hone]; decide)

theorem standard_branch {call : Call} (hname : key call.name = "if")
    (htwo : call.parameters.length = 1 ∨ call.parameters.length = 2) :
    standard.resolve call = .ok ⟨"If", .between 1 2, Command.branch⟩ := by
  refine standard_resolve (by simp [Command.control]) (hname.trans (by decide)) ?_
  rcases htwo with hlength | hlength <;> rw [hlength] <;> decide

theorem standard_runScript {call : Call} (hname : key call.name = "runscript")
    (hone : call.parameters.length = 1) :
    standard.resolve call = .ok ⟨"RunScript", .exactly 1, Command.runScript⟩ :=
  standard_resolve (by simp [Command.control]) (hname.trans (by decide)) (by rw [hone]; decide)

end CommandTable

end Cutscene
