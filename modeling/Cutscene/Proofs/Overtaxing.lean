import Cutscene.Proofs.Avoiding
import Cutscene.Proofs.Complaints
import Cutscene.Proofs.Duration
import Cutscene.World.Recording

/-! What overtaxes a recording. It breaks down under a range of talk lines with its ends the wrong
way round, and under goods whose number leaves the script integers. Three of the standard commands
ask for such a thing, and all others can be given any parameters. -/

namespace Cutscene

/-- Whether an action asks for talk lines or changes the number of some goods. -/
def Action.taxes : Action → Bool
  | .talk .. => true
  | .perform (.addGoods ..) _ => true
  | .perform (.removeGoods ..) _ => true
  | _ => false

namespace Recording

/-- What the recording cannot represent. -/
inductive Overtaxed (w : Recording) : Action → Prop where
  | talk {first last : Int32} (lines : w.talk.entries ≠ []) (reversed : last < first) :
      Overtaxed w (.talk first last)
  | add {name : String} {count : Int32} {wait : Option Wait}
      (beyond : Interval.word32.contains ((w.goodsCount name).toInt + count.toInt) = false) :
      Overtaxed w (.perform (.addGoods name count) wait)
  | remove {name : String} {count : Int32} {wait : Option Wait}
      (beyond : Interval.word32.contains ((w.goodsCount name).toInt - count.toInt) = false) :
      Overtaxed w (.perform (.removeGoods name count) wait)

variable {w : Recording} {action : Action}

theorem Overtaxed.taxes (h : w.Overtaxed action) : action.taxes = true := by
  cases h with
  | talk lines reversed => rfl
  | add beyond => rfl
  | remove beyond => rfl

theorem apply_ok {effect : Effect} (h : ∀ wait, (Action.perform effect wait).taxes = false) :
    ∃ w', w.apply effect = .ok w' := by
  cases effect with
  | addGoods name count => cases h none
  | removeGoods name count => cases h none
  | _ => exact ⟨_, rfl⟩

theorem perform_ok {effect : Effect} (h : ∀ wait, (Action.perform effect wait).taxes = false) :
    ∃ w', World.perform w effect = .ok w' := by
  obtain ⟨w', happly⟩ := apply_ok (w := w) h
  exact ⟨{ w' with effects := w'.effects.push effect }, by
    change w.perform effect = _
    rw [perform, happly]⟩

theorem perform_error_iff (effect : Effect) (wait : Option Wait) :
    (∃ crash, World.perform w effect = .error crash) ↔ w.Overtaxed (.perform effect wait) := by
  constructor
  · rintro ⟨crash, h⟩
    by_cases htaxes : ∀ wait, (Action.perform effect wait).taxes = false
    · obtain ⟨w', hok⟩ := perform_ok (w := w) htaxes
      rw [h] at hok
      cases hok
    · change w.perform effect = _ at h
      cases effect with
      | addGoods name count =>
        refine .add (Bool.eq_false_iff.mpr fun hwithin => ?_)
        simp [perform, apply, hwithin] at h
      | removeGoods name count =>
        refine .remove (Bool.eq_false_iff.mpr fun hwithin => ?_)
        simp [perform, apply, hwithin] at h
      | _ => exact absurd (fun _ => rfl) htaxes
  · intro h
    change ∃ crash, w.perform effect = _
    cases h with
    | add beyond => exact ⟨_, by simp only [perform, apply, beyond]; rfl⟩
    | remove beyond => exact ⟨_, by simp only [perform, apply, beyond]; rfl⟩

theorem talkLines?_eq_none_iff {first last : Int32} :
    World.talkLines? w first last = none ↔ w.talk.entries ≠ [] ∧ last < first := by
  change w.talkLines? first last = none ↔ _
  unfold talkLines?
  cases w.talk.entries with
  | nil => simp
  | cons line lines => simp

end Recording

namespace Engine

variable {e : Engine Recording} {action : Action} {crash : Crash Recording}

theorem perform_error_iff (effect : Effect) (wait : Option Wait) :
    (∃ crash, e.perform effect = .error crash) ↔
      e.scene.world.Overtaxed (.perform effect wait) := by
  simp only [perform_eq_error, Recording.perform_error_iff effect wait]

theorem shows (e : Engine Recording) (line : TalkLine) :
    ∃ world, World.perform e.scene.world (.dialog line.text line.portrait) = .ok world :=
  Recording.perform_ok fun _ => rfl

/-- To show something and then wait overtaxes the world just if showing it does. -/
theorem park_error_iff {effect : Effect} {wait : Wait} {course : Except Fault Course}
    (hfree : e.chain.wait = none) :
    (∃ crash, (e.perform effect >>= fun e => e.beginWait wait >>= fun e => pure (e, course)) =
      .error crash) ↔ e.scene.world.Overtaxed (.perform effect (some wait)) := by
  rw [← perform_error_iff effect (some wait)]
  refine exists_congr fun crash => ?_
  cases hperform : e.perform effect with
  | error crash' => simp
  | ok performed =>
    obtain ⟨world, -, rfl⟩ := perform_eq_ok.mp hperform
    have hfree' : (e.withWorld world).chain.wait = none := hfree
    simp [beginWait_of_free hfree', pure, Except.pure]

theorem talk_error_iff {first last : Int32} (hfree : e.chain.wait = none) :
    (∃ crash, e.talk first last = .error crash) ↔
      e.scene.world.Overtaxed (.talk first last) := by
  constructor
  · rintro ⟨crash, h⟩
    unfold talk at h
    split at h
    · next hnone =>
      obtain ⟨hlines, hreversed⟩ := Recording.talkLines?_eq_none_iff.mp hnone
      exact .talk hlines hreversed
    · cases h
    · next line rest _ =>
      obtain ⟨world, hshown⟩ := e.shows line
      have htaxed := ((park_error_iff hfree).mp ⟨crash, h⟩).taxes
      cases htaxed
  · rintro ⟨lines, reversed⟩
    have hnone := Recording.talkLines?_eq_none_iff.mpr ⟨lines, reversed⟩
    exact ⟨⟨.talkRange first last, e.scene.world⟩, by simp only [talk, hnone]⟩

/-- A jump to a marker whose label has been passed as often as can be counted. -/
inductive Exhausts (e : Engine Recording) : Action → Prop where
  | jump {label : String} {p : Position} {i : Nat} (stands : e.chain.position = some p)
      (marked : p.script.markerOf? (Label.normalize label) = some i)
      (full : e.chain.canCount (Label.normalize label) = false) : Exhausts e (.jump label)

theorem jump_error_iff {label : String} :
    (∃ crash, e.jump label = .error crash) ↔ e.Exhausts (.jump label) := by
  constructor
  · rintro ⟨crash, h⟩
    unfold jump at h
    dsimp only at h
    split at h
    · cases h
    · next script hscript =>
      split at h
      · cases h
      · next i hmarked =>
        rcases bind_eq_error.mp h with hpass | ⟨passed, -, h⟩
        · exact .jump (p := ⟨script, e.chain.line⟩) (by simp [Chain.position, hscript]) hmarked
            (pass_eq_error.mp hpass).1
        · cases h
  · rintro ⟨stands, marked, full⟩
    exact ⟨_, by rw [jump_of_marked stands marked, pass_eq_error.mpr ⟨full, rfl⟩, error_bind]⟩

/-- What makes an action break down on an engine that waits for nothing. -/
theorem act_error_iff (hfree : e.chain.wait = none) :
    (∃ crash, e.act action = .error crash) ↔
      e.scene.world.Overtaxed action ∨ e.Exhausts action := by
  have hmild : action.taxes = false → (∀ label, action ≠ .jump label) →
      (∀ crash, e.act action ≠ .error crash) →
      ((∃ crash, e.act action = .error crash) ↔
        e.scene.world.Overtaxed action ∨ e.Exhausts action) := by
    intro htaxes hstays hok
    constructor
    · rintro ⟨crash, h⟩
      exact absurd h (hok crash)
    · rintro (htaxed | hexhausts)
      · rw [htaxed.taxes] at htaxes
        cases htaxes
      · cases hexhausts
        exact absurd rfl (hstays _)
  have hnever : ∀ {a : Action}, (∀ label, a ≠ .jump label) → ¬ e.Exhausts a := by
    rintro a hstays ⟨⟩
    exact hstays _ rfl
  cases action with
  | perform effect wait =>
    rw [or_iff_left (hnever (by simp))]
    cases wait with
    | none =>
      rw [← perform_error_iff effect none]
      refine exists_congr fun crash => ?_
      cases hperform : e.perform effect with
      | error crash' => simp only [act, hperform, error_bind, Except.error.injEq]
      | ok performed =>
        simp only [act, hperform, iff_false, reduceCtorEq]
        rintro ⟨⟩
    | some wait => exact park_error_iff hfree
  | talk first last =>
    rw [or_iff_left (hnever (by simp))]
    exact talk_error_iff hfree
  | jump label =>
    rw [or_iff_right (by rintro ⟨⟩)]
    exact jump_error_iff
  | park wait =>
    refine hmild rfl (by simp) fun crash h => ?_
    rcases bind_eq_error.mp h with hbegun | ⟨parked, -, h⟩
    · exact beginWait_ne_error hfree hbegun
    · cases h
  | _ => exact hmild rfl (by simp) (by simp [act])

end Engine

/-- A command that is refused or asks for nothing that could overtax a recording. -/
def Mild (r : Except Fault Action) : Prop := ∀ action, r = .ok action → action.taxes = false

namespace Mild

variable {α : Type}

@[simp] theorem ok_iff {action : Action} : Mild (.ok action) ↔ action.taxes = false :=
  Avoids.ok_iff

@[simp] theorem pure_iff {action : Action} : Mild (pure action) ↔ action.taxes = false := ok_iff

@[simp] theorem fail_iff (cause : Cause) : Mild (View.fail cause) ↔ True := Avoids.fail_iff cause

@[simp] theorem bind_iff {r : Except Fault α} {g : α → Except Fault Action} :
    Mild (r >>= g) ↔ ∀ a, r = .ok a → Mild (g a) := Avoids.bind_iff

@[simp] theorem map_iff {r : Except Fault α} {g : α → Action} :
    Mild (g <$> r) ↔ ∀ a, r = .ok a → (g a).taxes = false := Avoids.map_iff

@[simp] theorem ite_iff {p : Prop} [Decidable p] {r r' : Except Fault Action} :
    Mild (if p then r else r') ↔ (p → Mild r) ∧ (¬p → Mild r') := Avoids.ite_iff

end Mild

namespace Command

theorem branch_mild (v : View) : Mild (branch v) := branch_avoids (fun _ => rfl) rfl v

theorem sleep_mild (v : View) : Mild (sleep v) := sleep_avoids rfl (fun _ => rfl) v

theorem control_mild : ∀ c ∈ control, ∀ v, Mild (c.handler v) := by
  simp [control, goto, giveBack, runScript, assign, update, draw, Action.taxes, branch_mild,
    sleep_mild]

theorem speech_mild : ∀ c ∈ speech, c = ⟨"Talk", .between 1 2, talk⟩ ∨ ∀ v, Mild (c.handler v) := by
  simp [speech, say, message, choose, chooseMultiple, Action.taxes]

theorem deleteOwner_mild (v : View) : Mild (deleteOwner v) := deleteOwner_avoids (fun _ => rfl) v

theorem playSound_mild (v : View) : Mild (playSound v) := playSound_avoids (fun _ _ => rfl) v

theorem scenery_mild : ∀ c ∈ scenery, ∀ v, Mild (c.handler v) := by
  simp [scenery, onText, onInteger, onOptionalText, plain, awaited, place, setObjectScript, setTrap,
    pan, tint, Action.taxes, deleteOwner_mild, playSound_mild]

theorem cast_mild : ∀ c ∈ cast, ∀ v, Mild (c.handler v) := by
  simp [cast, onText, onInteger, plain, place, onActorInteger, setNpcScript, onActor,
    showNpc, placeNpc, placePlayer, moveNpc, movePlayer, actNpc, actPlayer, started, animated,
    Action.taxes]

theorem holdings_mild : ∀ c ∈ holdings, c = ⟨"AddGoods", .between 1 2, onGoods .addGoods⟩ ∨
    c = ⟨"DelGoods", .between 1 2, onGoods .removeGoods⟩ ∨ ∀ v, Mild (c.handler v) := by
  simp [holdings, onText, onInteger, plain, readMoney, readGoods, openTrade,
    setTimeScript, Action.taxes]

end Command

/-- Of the standard commands only these ask for talk lines or change the number of some goods. -/
theorem CommandTable.standard_taxing {v : View} {c : Command} {action : Action}
    (hresolves : standard.resolve v.call = .ok c) (hasks : c.handler v = .ok action)
    (htaxes : action.taxes = true) :
    key v.call.name ∈ ["Talk", "AddGoods", "DelGoods"].map key := by
  have hmild : ¬ ∀ v, Mild (c.handler v) := by
    intro hmild
    rw [hmild v action hasks] at htaxes
    cases htaxes
  obtain ⟨hc, hkey⟩ := standard_listed (resolve_eq_ok hresolves).1
  rw [← hkey]
  rcases hc with hc | hc | hc | hc | hc
  · exact absurd (Command.control_mild c hc) hmild
  · rcases Command.speech_mild c hc with rfl | hothers
    · simp
    · exact absurd hothers hmild
  · exact absurd (Command.scenery_mild c hc) hmild
  · exact absurd (Command.cast_mild c hc) hmild
  · rcases Command.holdings_mild c hc with rfl | rfl | hothers
    · simp
    · simp
    · exact absurd hothers hmild

end Cutscene
