import Cutscene.Proofs.Failure
import Cutscene.Proofs.Overtaxing
import Cutscene.Proofs.Passages

/-! What a recording counts. Money stays above zero whatever is added to it or set, and so does what
is left of some goods when they are taken away. Only adding a negative number of goods can take them
below zero, so a run keeps a list of the goods that were overdrawn, and all others are in credit. -/

namespace Cutscene

namespace Recording

structure Stocked (w : Recording) : Prop where
  money : 0 ≤ w.money
  goods : ∀ name, 0 ≤ w.goodsCount name

/-- The goods that an action takes below zero. -/
def overdrawn? (w : Recording) : Action → Option String
  | .perform (.addGoods name count) _ =>
    if (w.goodsCount name).toInt + count.toInt < 0 then some name else none
  | _ => none

/-- The second recording is in credit where the first one is, but for the goods that were
overdrawn. -/
structure Trades (w : Recording) (overdrawn : Option String) (w' : Recording) : Prop where
  money : 0 ≤ w.money → 0 ≤ w'.money
  goods : ∀ name, 0 ≤ w.goodsCount name → (w'.goodsCount name < 0 ↔ overdrawn = some name)

variable {w w' : Recording} {effect : Effect} {name other : String} {count : Int}

theorem Trades.of_same (hmoney : w'.money = w.money) (hgoods : w'.goods = w.goods) :
    w.Trades none w' := by
  refine ⟨fun h => hmoney ▸ h, fun name hcredit => iff_of_false ?_ nofun⟩
  rw [goodsCount, hgoods]
  exact Int32.not_lt.mpr hcredit

theorem goodsCount_setGoods :
    (w.setGoods name count).goodsCount other =
      if name = other then Int32.ofInt count else w.goodsCount other := by
  simp only [goodsCount, setGoods, Dict.get?_insert]
  split
  · rfl
  · rfl

theorem toInt_ofInt (h : Interval.word32.contains count = true) :
    (Int32.ofInt count).toInt = count := by
  obtain ⟨hlow, hhigh⟩ := (Interval.contains_iff _ _).mp h
  exact Int32.toInt_ofInt_of_le hlow (Int.lt_add_one_of_le hhigh)

theorem limited_nonneg (n : Int) : 0 ≤ limited n := by
  have hfits : Interval.word32.contains (min (max n 0) Interval.word32.high) = true := by
    rw [Interval.contains_iff]
    simp only [Interval.word32]
    omega
  rw [Int32.le_iff_toInt_le, limited, toInt_ofInt hfits]
  simp only [Interval.word32, Int32.toInt_zero]
  omega

/-- The number of one kind of goods is set to a number that fits. -/
theorem trades_setGoods (h : Interval.word32.contains count = true) :
    w.Trades (if count < 0 then some name else none) (w.setGoods name count) := by
  refine ⟨id, fun other hcredit => ?_⟩
  rw [goodsCount_setGoods]
  by_cases hname : name = other
  · subst hname
    rw [if_pos rfl, Int32.lt_iff_toInt_lt, toInt_ofInt h, Int32.toInt_zero]
    split
    · next hdebt => exact iff_of_true hdebt rfl
    · next hcredit => exact iff_of_false hcredit nofun
  · rw [if_neg hname]
    refine iff_of_false (Int32.not_lt.mpr hcredit) fun heq => ?_
    split at heq
    · exact hname (Option.some.inj heq)
    · cases heq

theorem trades_of_apply (wait : Option Wait) (h : w.apply effect = .ok w') :
    w.Trades (w.overdrawn? (.perform effect wait)) w' := by
  cases effect with
  | addGoods name count =>
    simp only [apply] at h
    split at h
    · next hfits =>
      obtain rfl := Except.ok.inj h
      exact trades_setGoods hfits
    · cases h
  | removeGoods name count =>
    simp only [apply] at h
    split at h
    · next hfits =>
      obtain rfl := Except.ok.inj h
      have hclamped : Interval.word32.contains
          (max ((w.goodsCount name).toInt - count.toInt) 0) = true := by
        rw [Interval.contains_iff] at hfits ⊢
        simp only [Interval.word32] at hfits ⊢
        omega
      have htrades : w.Trades _ (w.setGoods name _) := trades_setGoods hclamped
      rwa [if_neg (by omega)] at htrades
    · cases h
  | addMoney amount =>
    obtain rfl := Except.ok.inj h
    exact ⟨fun _ => limited_nonneg _, (Trades.of_same (w := w) rfl rfl).goods⟩
  | setMoney amount =>
    obtain rfl := Except.ok.inj h
    exact ⟨fun _ => limited_nonneg _, (Trades.of_same (w := w) rfl rfl).goods⟩
  | _ =>
    obtain rfl := Except.ok.inj h
    exact .of_same rfl rfl

theorem trades_of_perform (wait : Option Wait) (h : World.perform w effect = .ok w') :
    w.Trades (w.overdrawn? (.perform effect wait)) w' := by
  change w.perform effect = _ at h
  unfold perform at h
  split at h
  · next applied happly =>
    obtain rfl := Except.ok.inj h
    have htrades := trades_of_apply wait happly
    exact ⟨htrades.money, htrades.goods⟩
  · cases h

end Recording

namespace Engine

variable {e e' : Engine Recording} {p : Position} {i : Instruction} {c : Call} {action : Action}
  {r : Request Recording} {o : Opening Recording}

/-- The goods that an instruction overdraws. -/
def overdraws? (e : Engine Recording) : Instruction → Option String
  | .marker .. => none
  | .call c => (e.asked? c).bind e.scene.world.overdrawn?

theorem trades_of_acts {course : Except Fault Course} (h : e.Acts action e' course) :
    e.scene.world.Trades (e.scene.world.overdrawn? action) e'.scene.world := by
  cases h with
  | perform performed => exact Recording.trades_of_perform none performed
  | @performAndPark effect wait world performed =>
    exact Recording.trades_of_perform (some wait) performed
  | talk lines performed => exact Recording.trades_of_perform none performed
  | _ => exact .of_same rfl rfl

theorem trades_of_step (h : e.step p i = .ok e') :
    e.scene.world.Trades (e.overdraws? i) e'.scene.world := by
  cases i with
  | marker name literal line =>
    obtain ⟨-, rfl⟩ := step_marker_eq_ok.mp h
    exact .of_same rfl rfl
  | call c =>
    cases dispatched_of_dispatch h with
    | unresolved unknown =>
      rw [observe_toRunner] at unknown
      have hnone : e.asked? c = none := by simp only [asked?, unknown]
      rw [overdraws?, hnone]
      exact .of_same (by simp [skipFaulty, advance]) (by simp [skipFaulty, advance])
    | refused resolves refuses =>
      rw [observe_toRunner] at resolves
      simp only [view, observe_toRunner, observe_world] at refuses
      have hnone : e.asked? c = none := by
        simp only [asked?, resolves, view, refuses]
        rfl
      rw [overdraws?, hnone, follow_world, observe_world]
      exact .of_same rfl rfl
    | acted asks acts =>
      have htrades := trades_of_acts acts
      rw [observe_world] at htrades
      rw [overdraws?, asked?_eq_some_iff.mpr (asks_observe.mp asks), Option.bind_some,
        follow_world]
      exact htrades

theorem trades_of_opening (h : e.opening r = .ok o) (hworld : r.keepsWorld = true) :
    e.scene.world.Trades none o.phase.engine.scene.world := by
  rcases (opened_of_opening h).tells hworld with hsame | ⟨text, portrait, hshown⟩ |
    ⟨name, value, hset⟩
  · rw [hsame]
    exact .of_same rfl rfl
  · exact Recording.trades_of_perform none hshown
  · rw [hset]
    exact .of_same rfl rfl

/-- All that a call may do to the world is to give one variable this value. -/
def WritesOut (e : Engine Recording) (c : Call) (value : Int32) : Prop :=
  ∀ p e', e.step p (.call c) = .ok e' → e'.scene.world = e.scene.world ∨
    ∃ name, e'.scene.world = World.setVariable e.scene.world name value

theorem writesOut_of_assigns {command : Command} {value : Int32}
    (hresolve : e.table.resolve c = .ok command)
    (hassigns : ∀ action, command.handler (e.view c) = .ok action →
      ∃ name, action = .assign name value) : e.WritesOut c value := by
  intro p e' hstep
  cases dispatched_of_dispatch hstep with
  | unresolved unknown =>
    rw [observe_toRunner, hresolve] at unknown
    cases unknown
  | refused resolves refuses =>
    rw [follow_world, observe_world]
    exact Or.inl rfl
  | acted asks acts =>
    obtain ⟨found, hfound, hasks⟩ := asks_observe.mp asks
    obtain rfl := Except.ok.inj (hresolve.symm.trans hfound)
    obtain ⟨name, rfl⟩ := hassigns _ hasks
    cases acts
    refine Or.inr ⟨name, ?_⟩
    rw [follow_world]
    simp [assign]

theorem writesOut_money {command : Command} (hresolve : e.table.resolve c = .ok command)
    (hreads : command.handler = Command.readMoney) : e.WritesOut c e.scene.world.money := by
  refine writesOut_of_assigns hresolve fun action hasks => ?_
  rw [hreads] at hasks
  obtain ⟨name, -, hassign⟩ := bind_eq_ok.mp hasks
  exact ⟨name, (Except.ok.inj hassign).symm⟩

theorem writesOut_goods {command : Command} {goods : String}
    (hresolve : e.table.resolve c = .ok command) (hreads : command.handler = Command.readGoods)
    (hgoods : (e.view c).text 1 = .ok goods) :
    e.WritesOut c (e.scene.world.goodsCount goods) := by
  refine writesOut_of_assigns hresolve fun action hasks => ?_
  rw [hreads] at hasks
  obtain ⟨name, -, hread⟩ := bind_eq_ok.mp hasks
  rw [hgoods, ok_bind] at hread
  exact ⟨name, (Except.ok.inj hread).symm⟩

end Engine

open Engine

/-- A request that brings no recording with debts. -/
def Request.Honest (r : Request Recording) : Prop := ∀ w, r = .setWorld w → w.Stocked

namespace Phase

def recording (s : Phase Recording) : Recording := s.engine.scene.world

/-- The goods that the next round overdraws. -/
def overdraws? (s : Phase Recording) : Option String := s.next?.bind s.engine.overdraws?

end Phase

theorem Round.trades {s t : Phase Recording} (h : Round s t) :
    s.recording.Trades s.overdraws? t.recording := by
  cases h with
  | @halt left e held =>
    rw [Phase.overdraws?, next?_of_held left held]
    exact .of_same rfl rfl
  | @leave left e c free runs ended leaves =>
    rw [Phase.overdraws?, next?_of_ended left ended]
    exact .of_same rfl rfl
  | @finish left e free ended alone =>
    rw [Phase.overdraws?, next?_of_ended left ended]
    exact .of_same rfl rfl
  | yield free stands next =>
    refine .of_same ?_ ?_
    · simp [Phase.recording, Phase.engine]
    · simp [Phase.recording, Phase.engine]
  | @step left e e' p i free stands next ran =>
    rw [Phase.overdraws?, next?_of_inside left free stands next, Option.bind_some]
    exact trades_of_step ran

/-- A run of a new engine in a recording without debts, with the goods that were overdrawn in it. -/
inductive Trading (table : CommandTable) (options : Options) :
    List String → Phase Recording → Prop where
  | begin {scene : Scene Recording} (taken : scene.cache.faults = [])
      (stocked : scene.world.Stocked) :
      Trading table options [] (.resting (.fresh table options scene))
  | round {lost : List String} {s t : Phase Recording} (before : Trading table options lost s)
      (round : Round s t) : Trading table options (lost ++ s.overdraws?.toList) t
  | request {lost : List String} {e : Engine Recording} {r : Request Recording}
      {o : Opening Recording} (before : Trading table options lost (.resting e)) (honest : r.Honest)
      (opens : e.opening r = .ok o) : Trading table options lost o.phase

variable {table : CommandTable} {options : Options} {lost : List String} {s : Phase Recording}

theorem exists_trading_iff : (∃ lost, Trading table options lost s) ↔
    ∃ scene : Scene Recording, scene.cache.faults = [] ∧ scene.world.Stocked ∧
      ReachesBy Request.Honest (.resting (.fresh table options scene)) s := by
  constructor
  · rintro ⟨lost, h⟩
    induction h with
    | @begin scene taken stocked => exact ⟨scene, taken, stocked, .refl⟩
    | round before round ih =>
      obtain ⟨scene, htaken, hstocked, hreaches⟩ := ih
      exact ⟨scene, htaken, hstocked, hreaches.tail ⟨none, by simp, .round round⟩⟩
    | @request lost e r o before honest opens ih =>
      obtain ⟨scene, htaken, hstocked, hreaches⟩ := ih
      exact ⟨scene, htaken, hstocked,
        hreaches.tail ⟨some r, by simpa using honest, .request opens⟩⟩
  · rintro ⟨scene, htaken, hstocked, hreaches⟩
    refine invariant_of_reachesBy (P := fun s => ∃ lost, Trading table options lost s) hreaches
      ⟨[], .begin htaken hstocked⟩ ?_ ?_
    · rintro s t - ⟨lost, htrading⟩ round
      exact ⟨_, htrading.round round⟩
    · rintro e r o - ⟨lost, htrading⟩ honest opens
      exact ⟨lost, htrading.request honest opens⟩

/-- What was never overdrawn is in credit. -/
theorem Trading.credit (h : Trading table options lost s) :
    0 ≤ s.recording.money ∧ ∀ name ∉ lost, 0 ≤ s.recording.goodsCount name := by
  induction h with
  | begin taken stocked => exact ⟨stocked.money, fun name _ => stocked.goods name⟩
  | @round lost s t before round ih =>
    have htrades := round.trades
    refine ⟨htrades.money ih.1, fun name hname => ?_⟩
    rw [List.mem_append, not_or, Option.mem_toList] at hname
    have hcredit := ih.2 name hname.1
    exact Int32.not_lt.mp fun hdebt => hname.2 ((htrades.goods name hcredit).mp hdebt)
  | @request lost e r o before honest opens ih =>
    by_cases hworld : r.keepsWorld = true
    · have htrades := trades_of_opening opens hworld
      refine ⟨htrades.money ih.1, fun name hname => ?_⟩
      exact Int32.not_lt.mp fun hdebt => by
        simpa using (htrades.goods name (ih.2 name hname)).mp hdebt
    · cases r with
      | setWorld w =>
        obtain rfl := Except.ok.inj opens
        have hstocked := honest w rfl
        exact ⟨hstocked.money, fun name _ => hstocked.goods name⟩
      | _ => exact absurd rfl hworld

/-- Every run from a recording without debts keeps its money and all goods that it did not overdraw
at zero or above, and reads out just these numbers. An instruction takes goods below zero exactly
where it adds so negative a number to them. -/
theorem stock_stays_in_credit (table : CommandTable) (options : Options) (s : Phase Recording) :
    ((∃ scene : Scene Recording, scene.cache.faults = [] ∧ scene.world.Stocked ∧
        ReachesBy Request.Honest (.resting (.fresh table options scene)) s) ↔
      ∃ lost, Trading table options lost s) ∧
    ∀ lost, Trading table options lost s →
      0 ≤ s.recording.money ∧ (∀ name ∉ lost, 0 ≤ s.recording.goodsCount name) ∧
      (∀ call command, table.resolve call = .ok command →
        (command.handler = Command.readMoney → s.engine.WritesOut call s.recording.money) ∧
        ∀ goods, command.handler = Command.readGoods →
          (s.engine.view call).text 1 = .ok goods →
          s.engine.WritesOut call (s.recording.goodsCount goods)) ∧
      ∀ t, Round s t → ∀ name ∉ lost,
        (t.recording.goodsCount name < 0 ↔ s.overdraws? = some name) := by
  refine ⟨exists_trading_iff.symm, fun lost htrading => ?_⟩
  obtain ⟨hmoney, hgoods⟩ := htrading.credit
  obtain ⟨scene, htaken, -, hreaches⟩ := exists_trading_iff.mp ⟨lost, htrading⟩
  have hreachable : Reachable table options s := ⟨scene, htaken, reaches_of_reachesBy hreaches⟩
  have htable : s.engine.table = table := hreachable.frame.1
  refine ⟨hmoney, hgoods, fun call command hresolve => ?_, fun t round name hname =>
    round.trades.goods name (hgoods name hname)⟩
  rw [← htable] at hresolve
  exact ⟨writesOut_money hresolve, fun goods => writesOut_goods hresolve⟩

namespace Rehearsal

def barter : String := "AddGoods(\"Herb\", -5);\nGetGoodsNum($herbs, \"Herb\");"

def bartered : Script := (Script.parse "barter" barter).script

def giveHerbs : Call := ⟨"AddGoods", ["Herb", "-5"], "", "AddGoods(\"Herb\", -5);", 1⟩

theorem stocked_scene : scene.world.Stocked := ⟨by decide, fun _ => Int32.le_refl 0⟩

/-- A script gives herbs away that nobody has, and reads out a negative number of them. -/
theorem herbs_overdrawn : ∃ e : Engine Recording, scene.world.Stocked ∧
    ReachesBy Request.Honest (.resting (fresh .standard {} scene)) (.resting e) ∧
    e.scene.world.goodsCount "Herb" = -5 ∧ World.getVariable e.scene.world "herbs" = -5 := by
  obtain ⟨e, hserve, hstate⟩ := exists_ok
    (r := serve [.runContent "barter" barter none] (fresh .standard {} scene))
    (f := fun e => (e.scene.world.goodsCount "Herb", World.getVariable e.scene.world "herbs"))
    (b := (-5, -5)) (by decide +kernel)
  obtain ⟨hgoods, hvariable⟩ := Prod.mk.inj hstate
  exact ⟨e, stocked_scene, reachesBy_of_serve (by simp [Request.Honest]) hserve, hgoods, hvariable⟩

def bartering : CommandTable := Command.holdings.foldl CommandTable.register []

/-- The first line overdraws the herbs, and neither the money nor other goods. -/
theorem herbs_alone_overdrawn : ∃ s t : Phase Recording,
    Trading bartering {} [] s ∧ Round s t ∧ Trading bartering {} ["Herb"] t ∧
    s.overdraws? = some "Herb" ∧ t.recording.goodsCount "Herb" < 0 ∧
    0 ≤ t.recording.goodsCount "Leaf" ∧ 0 ≤ t.recording.money := by
  obtain ⟨o, hopen, hstate⟩ := exists_ok
    (r := (fresh bartering {} scene).opening (.runContent "barter" barter none))
    (f := fun o => (glance o.phase, o.phase.overdraws?,
      (o.phase.engine.step ⟨bartered, 0⟩ (.call giveHerbs)).toBool))
    (b := (⟨some ⟨bartered, 0⟩, [], false, some 10000⟩, some "Herb", true)) (by decide +kernel)
  obtain ⟨hglance, hstate⟩ := Prod.mk.inj hstate
  obtain ⟨hherb, hruns⟩ := Prod.mk.inj hstate
  obtain ⟨e, hphase, hp, -, hfree⟩ := running_of_glance hglance
  rw [hphase] at hherb hruns
  have hi : Position.instruction? ⟨bartered, 0⟩ = some (.call giveHerbs) := by decide +kernel
  cases hstep : e.step ⟨bartered, 0⟩ (.call giveHerbs) with
  | error crash => simp [Phase.engine, hstep, Except.toBool] at hruns
  | ok e' =>
    have hfresh : Trading bartering {} [] (.resting (fresh bartering {} scene)) :=
      .begin rfl stocked_scene
    have htrading : Trading bartering {} [] (.running 10000 e) := by
      rw [← hphase]
      exact hfresh.request (by simp [Request.Honest]) hopen
    have hround : Round (.running 10000 e) (.running 9999 e') := .step hfree hp hi hstep
    have hafter : Trading bartering {} ["Herb"] (.running 9999 e') := by
      have hlost := htrading.round hround
      rwa [hherb] at hlost
    obtain ⟨-, -, -, hrounds⟩ := (stock_stays_in_credit bartering {} _).2 [] htrading
    obtain ⟨hmoney, hgoods, -, -⟩ := (stock_stays_in_credit bartering {} _).2 ["Herb"] hafter
    exact ⟨_, _, htrading, hround, hafter, hherb,
      (hrounds _ hround "Herb" List.not_mem_nil).mpr hherb, hgoods "Leaf" (by simp), hmoney⟩

end Rehearsal

end Cutscene
