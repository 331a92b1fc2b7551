import Cutscene.Proofs.Complaints

/-! What standard commands reply. A command reads its parameters and then asks for one action, or it
is refused for something in the call. Both can be read off its text, as what it replies is made up
of what its parts reply. None of the standard commands claims to wait without saying for what. -/

namespace Cutscene

/-- Whether a command may be refused for it: it lies in the parameters or the owner of the call. -/
def Cause.isOfCall : Cause → Bool
  | .conditionEmpty => true
  | .operandMissing _ => true
  | .operatorUnknown _ => true
  | .soundParameterCount _ => true
  | .parameterMissing .. => true
  | .parameterNotInteger .. => true
  | .parameterNotVariable .. => true
  | .ownerMissing _ => true
  | .ownerNotObject => true
  | .targetMissing => true
  | _ => false

/-- A result that has a property, or that is refused for something in the call, without a place. -/
def Replies {α : Type} (P : α → Prop) : Except Fault α → Prop
  | .ok a => P a
  | .error f => f.cause.isOfCall = true ∧ f.location = none

namespace Replies

variable {α β : Type} {P : α → Prop} {Q : β → Prop}

@[simp] theorem ok_iff {a : α} : Replies P (.ok a) ↔ P a := Iff.rfl

@[simp] theorem pure_iff {a : α} : Replies P (pure a) ↔ P a := Iff.rfl

@[simp] theorem fail_iff {cause : Cause} : Replies P (View.fail cause) ↔ cause.isOfCall = true :=
  and_iff_left rfl

@[simp] theorem bind_iff {r : Except Fault α} {g : α → Except Fault β} :
    Replies Q (r >>= g) ↔ Replies (fun a => Replies Q (g a)) r := by
  cases r with
  | error f => exact Iff.rfl
  | ok a => exact Iff.rfl

@[simp] theorem map_iff {r : Except Fault α} {g : α → β} :
    Replies Q (g <$> r) ↔ Replies (fun a => Q (g a)) r := by
  cases r with
  | error f => exact Iff.rfl
  | ok a => exact Iff.rfl

@[simp] theorem ite_iff {p : Prop} [Decidable p] {r r' : Except Fault α} :
    Replies P (if p then r else r') ↔ (p → Replies P r) ∧ (¬p → Replies P r') := by
  split <;> simp [*]

theorem mono {P' : α → Prop} {r : Except Fault α} (h : Replies P r) (himp : ∀ a, P a → P' a) :
    Replies P' r := by
  cases r with
  | error f => exact h
  | ok a => exact himp a h

/-- What holds of anything holds of what is there. -/
theorem of_forall {r : Except Fault α} (h : Replies (fun _ => True) r) (hP : ∀ a, P a) :
    Replies P r :=
  h.mono fun a _ => hP a

@[simp] theorem mapM {g : α → Except Fault β} {P : List β → Prop}
    (hg : ∀ a, Replies (fun _ => True) (g a)) (hP : ∀ bs, P bs) (as : List α) :
    Replies P (as.mapM g) := by
  refine of_forall ?_ hP
  induction as with
  | nil => trivial
  | cons a as ih =>
    rw [List.mapM_cons, bind_iff]
    exact of_forall (hg a) fun b => bind_iff.mpr (of_forall ih fun bs => trivial)

end Replies

theorem Condition.isOfCall_of_evaluate {value : String → Int32} {raw : String} {cause : Cause}
    (h : evaluate value raw = .error cause) : cause.isOfCall = true := by
  rcases evaluate_error_cases h with rfl | ⟨_, rfl⟩ | ⟨_, rfl⟩
  · rfl
  · rfl
  · rfl

namespace View

variable {v : View} {i : Nat}

theorem replies_raw : Replies (fun _ => True) (v.raw i) := by
  unfold raw
  split
  · trivial
  · exact ⟨rfl, rfl⟩

theorem replies_integer : Replies (fun _ => True) (v.integer i) := by
  refine Replies.bind_iff.mpr (Replies.of_forall replies_raw fun raw => ?_)
  split
  · trivial
  · exact ⟨rfl, rfl⟩

theorem replies_target : Replies (fun _ => True) (v.target i) := by
  refine Replies.bind_iff.mpr (Replies.of_forall replies_raw fun raw => ?_)
  split
  · trivial
  · exact ⟨rfl, rfl⟩

theorem replies_ownerId : Replies (fun _ => True) v.ownerId := by
  unfold ownerId
  split
  · trivial
  · exact ⟨rfl, rfl⟩

variable {P : String → Prop} {Q : Int32 → Prop}

@[simp] theorem raw_replies (h : ∀ s, P s) : Replies P (v.raw i) := .of_forall replies_raw h

@[simp] theorem text_replies (h : ∀ s, P s) : Replies P (v.text i) :=
  Replies.map_iff.mpr (raw_replies fun _ => h _)

@[simp] theorem textOr_replies {default : String} (h : ∀ s, P s) :
    Replies P (v.textOr i default) := by
  simp [textOr, h]

@[simp] theorem integer_replies (h : ∀ n, Q n) : Replies Q (v.integer i) :=
  .of_forall replies_integer h

@[simp] theorem integerOr_replies {default : Int32} (h : ∀ n, Q n) :
    Replies Q (v.integerOr i default) := by
  unfold integerOr
  split <;> simp [h]

@[simp] theorem target_replies (h : ∀ s, P s) : Replies P (v.target i) :=
  .of_forall replies_target h

@[simp] theorem ownerId_replies (h : ∀ s, P s) : Replies P v.ownerId :=
  .of_forall replies_ownerId h

@[simp] theorem actor_replies (h : ∀ s, P s) : Replies P (v.actor i) := by
  simp [actor, h]

@[simp] theorem branchTarget_replies (h : ∀ s, P s) : Replies P v.branchTarget := by
  simp [branchTarget, h]

@[simp] theorem condition_replies {P : Bool → Prop} (h : ∀ holds, P holds) :
    Replies P (v.condition i) := by
  refine Replies.bind_iff.mpr (raw_replies fun raw => ?_)
  cases hholds : Condition.evaluate v.value raw with
  | ok holds => exact h holds
  | error cause => exact ⟨Condition.isOfCall_of_evaluate hholds, rfl⟩

@[simp] theorem actorAndInteger_replies {P : String × Int32 → Prop} (h : ∀ x, P x) :
    Replies P v.actorAndInteger := by
  unfold actorAndInteger
  split <;> simp [h]

@[simp] theorem actorAndText_replies {P : String × String → Prop} (h : ∀ x, P x) :
    Replies P v.actorAndText := by
  unfold actorAndText
  split <;> simp [h]

@[simp] theorem textsFrom_replies {P : List String → Prop} (h : ∀ texts, P texts) :
    Replies P (v.textsFrom i) :=
  .mapM (fun _ => text_replies fun _ => trivial) h _

end View

namespace Command

theorem branch_replies (v : View) : Replies (· ≠ .stall) (branch v) := by
  simp [branch, Cause.isOfCall]

theorem sleep_replies (v : View) : Replies (· ≠ .stall) (sleep v) := by
  refine Replies.bind_iff.mpr (View.integer_replies fun time => ?_)
  refine Replies.pure_iff.mpr ?_
  split
  · simp
  · simp

theorem deleteOwner_replies (v : View) : Replies (· ≠ .stall) (deleteOwner v) := by
  simp only [deleteOwner, ok_bind]
  split
  · simp
  · exact ⟨rfl, rfl⟩

theorem soundPlace_replies (v : View) : Replies (fun _ => True) (soundPlace v) := by
  unfold soundPlace
  split
  · simp
  · simp
  · exact ⟨rfl, rfl⟩

theorem playSound_replies (v : View) : Replies (· ≠ .stall) (playSound v) := by
  refine Replies.bind_iff.mpr (View.text_replies fun file => ?_)
  exact Replies.bind_iff.mpr ((soundPlace_replies v).of_forall fun place => by simp)

theorem control_replies : ∀ c ∈ control, ∀ v, Replies (· ≠ .stall) (c.handler v) := by
  simp [control, goto, giveBack, runScript, assign, update, draw, branch_replies, sleep_replies]

theorem speech_replies : ∀ c ∈ speech, ∀ v, Replies (· ≠ .stall) (c.handler v) := by
  simp [speech, say, talk, message, choose, chooseMultiple]

theorem scenery_replies : ∀ c ∈ scenery, ∀ v, Replies (· ≠ .stall) (c.handler v) := by
  simp [scenery, onText, onInteger, onOptionalText, plain, awaited, place, setObjectScript, setTrap,
    pan, tint, deleteOwner_replies, playSound_replies]

theorem cast_replies : ∀ c ∈ cast, ∀ v, Replies (· ≠ .stall) (c.handler v) := by
  simp [cast, onText, onInteger, plain, place, onActorInteger, setNpcScript, onActor, showNpc, placeNpc,
    placePlayer, moveNpc, movePlayer, actNpc, actPlayer, started, animated]

theorem holdings_replies : ∀ c ∈ holdings, ∀ v, Replies (· ≠ .stall) (c.handler v) := by
  simp [holdings, onText, onInteger, plain, onGoods, readMoney, readGoods, openTrade,
    setTimeScript]

end Command

/-- Whatever a standard command is given, it does not claim to wait without saying for what, and it
is refused for nothing but the call. -/
theorem CommandTable.standard_replies {v : View} {c : Command}
    (hresolve : standard.resolve v.call = .ok c) : Replies (· ≠ .stall) (c.handler v) := by
  obtain ⟨hc, -⟩ := standard_listed (resolve_eq_ok hresolve).1
  rcases hc with hc | hc | hc | hc | hc
  · exact Command.control_replies c hc v
  · exact Command.speech_replies c hc v
  · exact Command.scenery_replies c hc v
  · exact Command.cast_replies c hc v
  · exact Command.holdings_replies c hc v

end Cutscene
