import Cutscene.Command.Standard
import Cutscene.Proofs.Result

/-! What commands complain of when they are run. What can be told from the text alone is left to the
check of a script: no command complains of it again, but for a sound, whose coordinates are given
both or not at all, while the check only sees their number. -/

namespace Cutscene

namespace Cause

/-- The codes of what a check is there to find. -/
def isCheckedCode (code : String) : Bool :=
  code = "COMMAND_UNKNOWN" || code = "COMMAND_ARITY" || "PARSE_".toList.isPrefixOf code.toList

theorem isCheckedCode_iff {code : String} : isCheckedCode code = true ↔
    code = "COMMAND_UNKNOWN" ∨ code = "COMMAND_ARITY" ∨ "PARSE_".toList <+: code.toList := by
  simp only [isCheckedCode, Bool.or_eq_true, decide_eq_true_eq, List.isPrefixOf_iff_prefix,
    or_assoc]

/-- Whether the text alone tells of the cause. -/
def isChecked : Cause → Bool
  | .labelMalformed _ => true
  | .lineMalformed _ => true
  | .textUnterminated => true
  | .parenthesisUnclosed => true
  | .commandUnknown _ => true
  | .parameterCount .. => true
  | .soundParameterCount _ => true
  | .stated code _ => isCheckedCode code
  | _ => false

theorem isChecked_eq (c : Cause) : c.isChecked = isCheckedCode c.code := by
  cases c <;> simp only [isChecked, code, stepsCode, notFoundCode] <;> decide +kernel

end Cause

/-- A result that is there or is refused for something that no check is there to find. -/
def Spares {α : Type} (r : Except Fault α) : Prop :=
  ∀ f, r = .error f → f.cause.isChecked = false

namespace Spares

variable {α β : Type}

@[simp] theorem ok (a : α) : Spares (.ok a) := by
  intro f h
  cases h

@[simp] theorem pure (a : α) : Spares (Pure.pure a) := ok a

@[simp] theorem fail {cause : Cause} :
    Spares (View.fail cause : Except Fault α) ↔ cause.isChecked = false := by
  simp [Spares, View.fail]

@[simp] theorem bind_iff {r : Except Fault α} {g : α → Except Fault β} :
    Spares (r >>= g) ↔ Spares r ∧ ∀ a, r = .ok a → Spares (g a) := by
  cases r with
  | error f => simp [Spares]
  | ok a => simp

@[simp] theorem map_iff {r : Except Fault α} {g : α → β} : Spares (g <$> r) ↔ Spares r := by
  rw [map_eq_pure_bind, bind_iff]
  simp only [pure, implies_true, and_true]

@[simp] theorem ite_iff {p : Prop} [Decidable p] {r r' : Except Fault α} :
    Spares (if p then r else r') ↔ (p → Spares r) ∧ (¬p → Spares r') := by
  split <;> simp [*]

@[simp] theorem mapM {g : α → Except Fault β} (hg : ∀ a, Spares (g a)) (as : List α) :
    Spares (as.mapM g) := by
  induction as with
  | nil => simp
  | cons a as ih => simp [hg, ih]

end Spares

namespace View

variable (v : View) (i : Nat)

@[simp] theorem raw_spares : Spares (v.raw i) := by
  unfold raw
  split <;> simp [Cause.isChecked]

@[simp] theorem text_spares : Spares (v.text i) := Spares.map_iff.mpr (raw_spares v i)

@[simp] theorem textOr_spares (default : String) : Spares (v.textOr i default) := by
  simp [textOr]

@[simp] theorem integer_spares : Spares (v.integer i) := by
  refine Spares.bind_iff.mpr ⟨raw_spares v i, fun raw _ => ?_⟩
  split <;> simp [Cause.isChecked]

@[simp] theorem integerOr_spares (default : Int32) : Spares (v.integerOr i default) := by
  unfold integerOr
  split <;> simp

@[simp] theorem target_spares : Spares (v.target i) := by
  refine Spares.bind_iff.mpr ⟨raw_spares v i, fun raw _ => ?_⟩
  split <;> simp [Cause.isChecked]

@[simp] theorem ownerId_spares : Spares v.ownerId := by
  unfold ownerId
  split <;> simp [Cause.isChecked]

@[simp] theorem actor_spares : Spares (v.actor i) := by
  simp [actor]

end View

theorem Condition.evaluate_error_cases {value : String → Int32} {raw : String} {cause : Cause}
    (h : evaluate value raw = .error cause) :
    cause = .conditionEmpty ∨ (∃ condition, cause = .operandMissing condition) ∨
      ∃ token, cause = .operatorUnknown token := by
  unfold evaluate evaluateChars at h
  dsimp only at h
  split at h
  · exact Or.inl (Except.error.inj h).symm
  · split at h
    · cases h
    · split at h
      · exact Or.inr (Or.inl ⟨_, (Except.error.inj h).symm⟩)
      · split at h
        · cases h
        · exact Or.inr (Or.inr ⟨_, (Except.error.inj h).symm⟩)

theorem Condition.evaluate_error {value : String → Int32} {raw : String} {cause : Cause}
    (h : evaluate value raw = .error cause) : cause.isChecked = false := by
  rcases evaluate_error_cases h with rfl | ⟨_, rfl⟩ | ⟨_, rfl⟩
  · rfl
  · rfl
  · rfl

namespace View

variable (v : View)

@[simp] theorem branchTarget_spares : Spares v.branchTarget := by
  simp [branchTarget]

@[simp] theorem condition_spares (i : Nat) : Spares (v.condition i) := by
  refine Spares.bind_iff.mpr ⟨raw_spares v i, fun raw _ => ?_⟩
  split
  · exact Spares.ok _
  · next hrefused => exact Spares.fail.mpr (Condition.evaluate_error hrefused)

@[simp] theorem actorAndInteger_spares : Spares v.actorAndInteger := by
  simp [actorAndInteger]

@[simp] theorem actorAndText_spares : Spares v.actorAndText := by
  simp [actorAndText]

@[simp] theorem textsFrom_spares (i : Nat) : Spares (v.textsFrom i) := by
  simp [textsFrom]

end View

namespace Command

@[simp] theorem branch_spares (v : View) : Spares (branch v) := by
  simp [branch, Cause.isChecked]

@[simp] theorem deleteOwner_spares (v : View) : Spares (deleteOwner v) := by
  simp only [deleteOwner, ok_bind]
  split <;> simp [Cause.isChecked]

/-- Only the number of its parameters sets a sound apart: it is neither one nor three. -/
theorem playSound_refused {v : View} {f : Fault} (h : playSound v = .error f)
    (hchecked : f.cause.isChecked = true) :
    f = { cause := .soundParameterCount v.call.parameters.length } ∧
      v.call.parameters.length ≠ 1 ∧ v.call.parameters.length ≠ 3 := by
  have hspares : ∀ {α} {r : Except Fault α}, Spares r → r ≠ .error f := by
    intro α r hr hrefused
    rw [hr f hrefused] at hchecked
    cases hchecked
  rcases bind_eq_error.mp h with htext | ⟨file, -, h⟩
  · exact absurd htext (hspares (v.text_spares 0))
  · rcases bind_eq_error.mp h with hplace | ⟨place, -, h⟩
    · unfold soundPlace at hplace
      split at hplace
      · exact absurd hplace (hspares (by simp))
      · cases hplace
      · next hthree hone => exact ⟨(Except.error.inj hplace).symm, hone, hthree⟩
    · cases h

theorem control_spares : ∀ c ∈ control, ∀ v, Spares (c.handler v) := by
  simp [control, goto, giveBack, runScript, sleep, assign, update, draw]

theorem speech_spares : ∀ c ∈ speech, ∀ v, Spares (c.handler v) := by
  simp [speech, say, talk, message, choose, chooseMultiple]

theorem scenery_spares : ∀ c ∈ scenery,
    c = ⟨"PlaySound", .between 1 3, playSound⟩ ∨ ∀ v, Spares (c.handler v) := by
  simp [scenery, onText, onInteger, onOptionalText, plain, awaited, place, setObjectScript, setTrap,
    pan, tint]

theorem cast_spares : ∀ c ∈ cast, ∀ v, Spares (c.handler v) := by
  simp [cast, onText, onInteger, plain, place, onActorInteger, setNpcScript, onActor, showNpc,
    placeNpc, placePlayer, moveNpc, movePlayer, actNpc, actPlayer]

theorem holdings_spares : ∀ c ∈ holdings, ∀ v, Spares (c.handler v) := by
  simp [holdings, onText, onInteger, plain, onGoods, readMoney, readGoods, openTrade,
    setTimeScript]

end Command

namespace CommandTable

theorem find?_foldl_register {cs : List Command} {t : CommandTable} {name : String} {c : Command}
    (h : find? (cs.foldl register t) name = some c) :
    (c ∈ cs ∧ key c.name = key name) ∨ t.find? name = some c := by
  induction cs generalizing t with
  | nil => exact Or.inr h
  | cons first cs ih =>
    rcases ih h with ⟨hc, hkey⟩ | hfirst
    · exact Or.inl ⟨List.mem_cons_of_mem _ hc, hkey⟩
    · rw [register, find?, Dict.get?_insert] at hfirst
      split at hfirst
      · next hkey =>
        obtain rfl := Option.some.inj hfirst
        exact Or.inl ⟨List.mem_cons_self, hkey⟩
      · exact Or.inr hfirst

theorem resolve_eq_ok {t : CommandTable} {call : Call} {c : Command} (h : t.resolve call = .ok c) :
    t.find? call.name = some c ∧ c.arity.accepts call.parameters.length = true := by
  unfold resolve at h
  split at h
  · cases h
  · next found hfound =>
    split at h
    · next haccepts =>
      obtain rfl := Except.ok.inj h
      exact ⟨hfound, haccepts⟩
    · cases h

theorem resolve_eq_error {t : CommandTable} {call : Call} {cause : Cause}
    (h : t.resolve call = .error cause) :
    cause = .commandUnknown call.name ∨
      ∃ c : Command, cause = .parameterCount c.name c.arity call.parameters.length := by
  unfold resolve at h
  split at h
  · exact Or.inl (Except.error.inj h).symm
  · next c _ =>
    split at h
    · cases h
    · exact Or.inr ⟨c, (Except.error.inj h).symm⟩

theorem standard_listed {name : String} {c : Command} (h : standard.find? name = some c) :
    (c ∈ Command.control ∨ c ∈ Command.speech ∨ c ∈ Command.scenery ∨ c ∈ Command.cast ∨
      c ∈ Command.holdings) ∧ key c.name = key name := by
  obtain ⟨hc, hkey⟩ := (find?_foldl_register h).resolve_right (by simp [find?])
  simp only [List.mem_append, or_assoc] at hc
  exact ⟨hc, hkey⟩

theorem standard_cases {name : String} {c : Command} (h : standard.find? name = some c) :
    c = ⟨"PlaySound", .between 1 3, Command.playSound⟩ ∧ key name = key "PlaySound" ∨
      ∀ v, Spares (c.handler v) := by
  obtain ⟨hc, hkey⟩ := standard_listed h
  rcases hc with hc | hc | hc | hc | hc
  · exact Or.inr (Command.control_spares c hc)
  · exact Or.inr (Command.speech_spares c hc)
  · rcases Command.scenery_spares c hc with rfl | hspares
    · exact Or.inl ⟨rfl, hkey.symm⟩
    · exact Or.inr hspares
  · exact Or.inr (Command.cast_spares c hc)
  · exact Or.inr (Command.holdings_spares c hc)

/-- Where a check finds nothing, only a sound with two parameters is refused for what a check is
there to find. -/
theorem standard_refused {v : View} {c : Command} {f : Fault}
    (hresolve : standard.resolve v.call = .ok c) (h : c.handler v = .error f)
    (hchecked : f.cause.isChecked = true) :
    f = { cause := .soundParameterCount 2 } ∧ key v.call.name = key "PlaySound" ∧
      v.call.parameters.length = 2 := by
  obtain ⟨hfind, haccepts⟩ := resolve_eq_ok hresolve
  rcases standard_cases hfind with ⟨rfl, hkey⟩ | hspares
  · obtain ⟨rfl, hone, hthree⟩ := Command.playSound_refused h hchecked
    have hbounds : 1 ≤ v.call.parameters.length ∧ v.call.parameters.length ≤ 3 :=
      Arity.between_accepts_iff.mp haccepts
    have htwo : v.call.parameters.length = 2 := by omega
    rw [htwo]
    exact ⟨rfl, hkey, rfl⟩
  · rw [hspares v f h] at hchecked
    cases hchecked

end CommandTable

end Cutscene
