import Cutscene.Proofs.Steering
import Cutscene.Proofs.Stock
import Mathlib.Algebra.Ring.Parity

/-! Which variables a run writes. Six of the standard commands give a value to the variable that
their first parameter names, and an answered selection gives one to the variable that was named when
it was opened. Nothing else that an engine does with a recording changes a variable. -/

namespace Cutscene

/-- A variable, and the value that it is given. -/
structure Write where
  name : String
  value : Int32
  deriving DecidableEq, Repr

/-- What has become of variables after these writes, the oldest first. -/
def written (vars : Dict String Int32) (writes : List Write) : Dict String Int32 :=
  writes.foldl (fun vars x => vars.insert x.name x.value) vars

def Action.write? (r : Random) : Action → Option Write
  | .assign name value => some ⟨name, value⟩
  | .draw name a b => some ⟨name, (r.between a b).1⟩
  | _ => none

/-- Whether an action gives a variable a value, whatever the random numbers. -/
def Action.writes : Action → Bool
  | .assign .. => true
  | .draw .. => true
  | _ => false

/-- The names, in small letters, of the commands that write a variable. -/
def CommandTable.writing : List String :=
  ["assign", "add", "sub", "getrandnum", "getmoneynum", "getgoodsnum"]

namespace Recording

def value (w : Recording) (name : String) : Int32 := World.getVariable w name

def set (w : Recording) (x : Write) : Recording := World.setVariable w x.name x.value

variable {w w' : Recording} {effect : Effect}

/-- No effect changes a variable. -/
theorem vars_of_perform (h : World.perform w effect = .ok w') : w'.vars = w.vars := by
  change w.perform effect = _ at h
  unfold perform at h
  split at h
  · next applied happly =>
    obtain rfl := Except.ok.inj h
    change applied.vars = w.vars
    cases effect with
    | addGoods name count =>
      simp only [apply] at happly
      split at happly
      · obtain rfl := Except.ok.inj happly
        rfl
      · cases happly
    | removeGoods name count =>
      simp only [apply] at happly
      split at happly
      · obtain rfl := Except.ok.inj happly
        rfl
      · cases happly
    | _ =>
      obtain rfl := Except.ok.inj happly
      rfl
  · cases h

end Recording

/-- What a call writes. Its first parameter names the variable, and its command says how the other
parameters make up the value. Sums and differences are taken modulo `2 ^ 32`. -/
inductive Engine.Writes (e : Engine Recording) (c : Call) : Write → Prop where
  | assign {target number name : String} {n : Int32}
      (named : CommandTable.key c.name = "assign") (given : c.parameters = [target, number])
      (targets : Variable.name? target = some name)
      (reads : Variable.integer? e.scene.world.value number = some n) : Writes e c ⟨name, n⟩
  | add {target number name : String} {n sum : Int32}
      (named : CommandTable.key c.name = "add") (given : c.parameters = [target, number])
      (targets : Variable.name? target = some name)
      (reads : Variable.integer? e.scene.world.value number = some n)
      (wraps : sum.toInt = ((e.scene.world.value name).toInt + n.toInt).bmod (2 ^ 32)) :
      Writes e c ⟨name, sum⟩
  | sub {target number name : String} {n difference : Int32}
      (named : CommandTable.key c.name = "sub") (given : c.parameters = [target, number])
      (targets : Variable.name? target = some name)
      (reads : Variable.integer? e.scene.world.value number = some n)
      (wraps : difference.toInt = ((e.scene.world.value name).toInt - n.toInt).bmod (2 ^ 32)) :
      Writes e c ⟨name, difference⟩
  | draw {target low high name : String} {a b : Int32}
      (named : CommandTable.key c.name = "getrandnum") (given : c.parameters = [target, low, high])
      (targets : Variable.name? target = some name)
      (reads : Variable.integer? e.scene.world.value low = some a)
      (reads' : Variable.integer? e.scene.world.value high = some b) :
      Writes e c ⟨name, (e.random.between a b).1⟩
  | money {target name : String} (named : CommandTable.key c.name = "getmoneynum")
      (given : c.parameters = [target]) (targets : Variable.name? target = some name) :
      Writes e c ⟨name, e.scene.world.money⟩
  | goods {target goods name : String} (named : CommandTable.key c.name = "getgoodsnum")
      (given : c.parameters = [target, goods]) (targets : Variable.name? target = some name) :
      Writes e c ⟨name, e.scene.world.goodsCount
        (Variable.substitute e.scene.world.value goods)⟩

theorem Arity.exactly_accepts_iff {n k : Nat} : (exactly n).accepts k = true ↔ k = n :=
  between_accepts_iff.trans (and_comm.trans Nat.le_antisymm_iff.symm)

namespace View

variable {v : View} {i : Nat} {raw : String}

theorem target_iff (h : v.call.parameters[i]? = some raw) {name : String} :
    v.target i = .ok name ↔ Variable.name? raw = some name := by
  simp only [target, View.raw, h, ok_bind]
  cases Variable.name? raw with
  | none => simp [fail]
  | some found => simp

theorem integer_iff (h : v.call.parameters[i]? = some raw) {n : Int32} :
    v.integer i = .ok n ↔ Variable.integer? v.value raw = some n := by
  simp only [integer, View.raw, h, ok_bind]
  cases Variable.integer? v.value raw with
  | none => simp [fail]
  | some found => simp

theorem text_of_given (h : v.call.parameters[i]? = some raw) :
    v.text i = .ok (Variable.substitute v.value raw) := by
  simp only [text, View.raw, h, ok_map]

end View

namespace Command

/-- The commands that write a variable. -/
def writers : List Command := [
  ⟨"Assign", .exactly 2, assign⟩,
  ⟨"Add", .exactly 2, update (· + ·)⟩,
  ⟨"Sub", .exactly 2, update (· - ·)⟩,
  ⟨"GetRandNum", .exactly 3, draw⟩,
  ⟨"GetMoneyNum", .exactly 1, readMoney⟩,
  ⟨"GetGoodsNum", .exactly 2, readGoods⟩]

theorem key_writers : writers.map (fun c => CommandTable.key c.name) = CommandTable.writing := by
  decide +kernel

theorem mem_standard_of_mem_writers : ∀ c ∈ writers,
    c ∈ control ++ speech ++ scenery ++ cast ++ holdings := by
  simp [writers, control, holdings]

variable {v : View} {action : Action}

theorem assign_eq_ok : assign v = .ok action ↔
    ∃ name, v.target 0 = .ok name ∧ ∃ n, v.integer 1 = .ok n ∧ .assign name n = action := by
  simp only [assign, bind_eq_ok, pure, Except.pure, Except.ok.injEq]

theorem update_eq_ok {combine : Int32 → Int32 → Int32} : update combine v = .ok action ↔
    ∃ name, v.target 0 = .ok name ∧ ∃ n, v.integer 1 = .ok n ∧
      .assign name (combine (v.value name) n) = action := by
  simp only [update, bind_eq_ok, pure, Except.pure, Except.ok.injEq, exists_eq_left']

theorem draw_eq_ok : draw v = .ok action ↔
    ∃ name, v.target 0 = .ok name ∧ ∃ a, v.integer 1 = .ok a ∧ ∃ b, v.integer 2 = .ok b ∧
      .draw name a b = action := by
  simp only [draw, bind_eq_ok, pure, Except.pure, Except.ok.injEq]

theorem readMoney_eq_ok : readMoney v = .ok action ↔
    ∃ name, v.target 0 = .ok name ∧ .assign name v.money = action := by
  simp only [readMoney, bind_eq_ok, pure, Except.pure, Except.ok.injEq, exists_eq_left']

theorem readGoods_eq_ok : readGoods v = .ok action ↔
    ∃ name, v.target 0 = .ok name ∧ ∃ goods, v.text 1 = .ok goods ∧
      .assign name (v.goodsCount goods) = action := by
  simp only [readGoods, bind_eq_ok, pure, Except.pure, Except.ok.injEq, exists_eq_left']

theorem branch_readonly (v : View) : Avoids Action.writes (branch v) :=
  branch_avoids (fun _ => rfl) rfl v

theorem sleep_readonly (v : View) : Avoids Action.writes (sleep v) :=
  sleep_avoids rfl (fun _ => rfl) v

theorem control_readonly : ∀ c ∈ control, c ∈ writers ∨
    ∀ v, Avoids Action.writes (c.handler v) := by
  simp [control, writers, goto, giveBack, runScript, Action.writes, branch_readonly, sleep_readonly]

theorem speech_readonly : ∀ c ∈ speech, ∀ v, Avoids Action.writes (c.handler v) := by
  simp [speech, say, talk, message, choose, chooseMultiple, Action.writes]

theorem deleteOwner_readonly (v : View) : Avoids Action.writes (deleteOwner v) :=
  deleteOwner_avoids (fun _ => rfl) v

theorem playSound_readonly (v : View) : Avoids Action.writes (playSound v) :=
  playSound_avoids (fun _ _ => rfl) v

theorem scenery_readonly : ∀ c ∈ scenery, ∀ v, Avoids Action.writes (c.handler v) := by
  simp [scenery, onText, onInteger, onOptionalText, plain, awaited, place, setObjectScript, setTrap,
    pan, tint, Action.writes, deleteOwner_readonly, playSound_readonly]

theorem cast_readonly : ∀ c ∈ cast, ∀ v, Avoids Action.writes (c.handler v) := by
  simp [cast, onText, onInteger, plain, place, onActorInteger, setNpcScript, onActor, showNpc,
    placeNpc, placePlayer, moveNpc, movePlayer, actNpc, actPlayer, started, animated, Action.writes]

theorem holdings_readonly : ∀ c ∈ holdings, c ∈ writers ∨
    ∀ v, Avoids Action.writes (c.handler v) := by
  simp [holdings, writers, onText, onInteger, plain, onGoods, openTrade, setTimeScript,
    Action.writes]

end Command

/-- What a standard command asks for gives a variable a value only if it is one of the six. -/
theorem CommandTable.standard_writing {v : View} {c : Command} {action : Action}
    (hresolves : standard.resolve v.call = .ok c) (hasks : c.handler v = .ok action)
    (hwrites : action.writes = true) : c ∈ Command.writers ∧ key c.name = key v.call.name := by
  have hreads : ¬∀ v, Avoids Action.writes (c.handler v) := by
    intro hreads
    rw [hreads v action hasks] at hwrites
    cases hwrites
  obtain ⟨hc, hkey⟩ := standard_listed (resolve_eq_ok hresolves).1
  refine ⟨?_, hkey⟩
  rcases hc with hc | hc | hc | hc | hc
  · exact (Command.control_readonly c hc).resolve_right hreads
  · exact absurd (Command.speech_readonly c hc) hreads
  · exact absurd (Command.scenery_readonly c hc) hreads
  · exact absurd (Command.cast_readonly c hc) hreads
  · exact (Command.holdings_readonly c hc).resolve_right hreads

namespace Engine

variable {e e' : Engine Recording} {c : Call} {action : Action} {command : Command} {x : Write}

theorem writes_of_write? {r : Random} (h : action.write? r = some x) : action.writes = true := by
  cases action with
  | assign name value => rfl
  | draw name a b => rfl
  | _ => cases h

theorem asks_of_writer (command : Command) (htable : e.table = .standard)
    (hc : command ∈ Command.writers)
    (hname : CommandTable.key c.name = CommandTable.key command.name)
    (haccepts : command.arity.accepts c.parameters.length = true)
    (hasks : command.handler (e.view c) = .ok action) : e.Asks c action := by
  refine ⟨command, ?_, hasks⟩
  rw [htable]
  have hstandard := Command.mem_standard_of_mem_writers command hc
  exact CommandTable.standard_resolve hstandard hname haccepts

/-- A call that writes asks for just that. -/
theorem Writes.asks (h : e.Writes c x) (htable : e.table = .standard) :
    ∃ action, e.Asks c action ∧ action.write? e.random = some x := by
  have hat : ∀ {i : Nat} {raw : String}, c.parameters[i]? = some raw →
      (e.view c).call.parameters[i]? = some raw := id
  cases h with
  | @assign target number name n named given targets reads =>
    refine ⟨.assign name n, asks_of_writer ⟨"Assign", .exactly 2, Command.assign⟩ htable
      (by simp [Command.writers]) (named.trans (by decide)) (by rw [given]; rfl) ?_, rfl⟩
    exact Command.assign_eq_ok.mpr
      ⟨name, (View.target_iff (hat (by simp [given]))).mpr targets,
        n, (View.integer_iff (hat (by simp [given]))).mpr reads, rfl⟩
  | @add target number name n sum named given targets reads wraps =>
    obtain rfl : sum = e.scene.world.value name + n :=
      Int32.toInt_inj.mp (wraps.trans (Int32.toInt_add ..).symm)
    refine ⟨.assign name _, asks_of_writer ⟨"Add", .exactly 2, Command.update (· + ·)⟩ htable
      (by simp [Command.writers]) (named.trans (by decide)) (by rw [given]; rfl) ?_, rfl⟩
    exact Command.update_eq_ok.mpr
      ⟨name, (View.target_iff (hat (by simp [given]))).mpr targets,
        n, (View.integer_iff (hat (by simp [given]))).mpr reads, rfl⟩
  | @sub target number name n difference named given targets reads wraps =>
    obtain rfl : difference = e.scene.world.value name - n :=
      Int32.toInt_inj.mp (wraps.trans (Int32.toInt_sub ..).symm)
    refine ⟨.assign name _, asks_of_writer ⟨"Sub", .exactly 2, Command.update (· - ·)⟩ htable
      (by simp [Command.writers]) (named.trans (by decide)) (by rw [given]; rfl) ?_, rfl⟩
    exact Command.update_eq_ok.mpr
      ⟨name, (View.target_iff (hat (by simp [given]))).mpr targets,
        n, (View.integer_iff (hat (by simp [given]))).mpr reads, rfl⟩
  | @draw target low high name a b named given targets reads reads' =>
    refine ⟨.draw name a b, asks_of_writer ⟨"GetRandNum", .exactly 3, Command.draw⟩ htable
      (by simp [Command.writers]) (named.trans (by decide)) (by rw [given]; rfl) ?_, rfl⟩
    exact Command.draw_eq_ok.mpr
      ⟨name, (View.target_iff (hat (by simp [given]))).mpr targets,
        a, (View.integer_iff (hat (by simp [given]))).mpr reads,
        b, (View.integer_iff (hat (by simp [given]))).mpr reads', rfl⟩
  | @money target name named given targets =>
    refine ⟨.assign name _, asks_of_writer ⟨"GetMoneyNum", .exactly 1, Command.readMoney⟩ htable
      (by simp [Command.writers]) (named.trans (by decide)) (by rw [given]; rfl) ?_, rfl⟩
    exact Command.readMoney_eq_ok.mpr
      ⟨name, (View.target_iff (hat (by simp [given]))).mpr targets, rfl⟩
  | @goods target goods name named given targets =>
    refine ⟨.assign name _, asks_of_writer ⟨"GetGoodsNum", .exactly 2, Command.readGoods⟩ htable
      (by simp [Command.writers]) (named.trans (by decide)) (by rw [given]; rfl) ?_, rfl⟩
    exact Command.readGoods_eq_ok.mpr
      ⟨name, (View.target_iff (hat (by simp [given]))).mpr targets,
        _, View.text_of_given (hat (by simp [given])), rfl⟩

/-- What one of the six commands asks for is the write of its call. -/
theorem writes_of_writer (hc : command ∈ Command.writers)
    (hname : CommandTable.key command.name = CommandTable.key c.name)
    (haccepts : command.arity.accepts c.parameters.length = true)
    (hasks : command.handler (e.view c) = .ok action) :
    ∃ x, action.write? e.random = some x ∧ e.Writes c x := by
  have hnamed := hname.symm
  have hat : ∀ {i : Nat} {raw : String}, c.parameters[i]? = some raw →
      (e.view c).call.parameters[i]? = some raw := id
  simp only [Command.writers, List.mem_cons, List.not_mem_nil, or_false] at hc
  -- the arity says how many parameters there are, the handler what each of them is read as
  rcases hc with rfl | rfl | rfl | rfl | rfl | rfl
  · obtain ⟨target, number, given⟩ :=
      List.length_eq_two.mp (Arity.exactly_accepts_iff.mp haccepts)
    obtain ⟨name, htarget, n, hinteger, rfl⟩ := Command.assign_eq_ok.mp hasks
    exact ⟨_, rfl, .assign (hnamed.trans (by decide)) given
      ((View.target_iff (hat (by simp [given]))).mp htarget)
      ((View.integer_iff (hat (by simp [given]))).mp hinteger)⟩
  · obtain ⟨target, number, given⟩ :=
      List.length_eq_two.mp (Arity.exactly_accepts_iff.mp haccepts)
    obtain ⟨name, htarget, n, hinteger, rfl⟩ := Command.update_eq_ok.mp hasks
    exact ⟨_, rfl, .add (hnamed.trans (by decide)) given
      ((View.target_iff (hat (by simp [given]))).mp htarget)
      ((View.integer_iff (hat (by simp [given]))).mp hinteger) (Int32.toInt_add ..)⟩
  · obtain ⟨target, number, given⟩ :=
      List.length_eq_two.mp (Arity.exactly_accepts_iff.mp haccepts)
    obtain ⟨name, htarget, n, hinteger, rfl⟩ := Command.update_eq_ok.mp hasks
    exact ⟨_, rfl, .sub (hnamed.trans (by decide)) given
      ((View.target_iff (hat (by simp [given]))).mp htarget)
      ((View.integer_iff (hat (by simp [given]))).mp hinteger) (Int32.toInt_sub ..)⟩
  · obtain ⟨target, low, high, given⟩ :=
      List.length_eq_three.mp (Arity.exactly_accepts_iff.mp haccepts)
    obtain ⟨name, htarget, a, hlow, b, hhigh, rfl⟩ := Command.draw_eq_ok.mp hasks
    exact ⟨_, rfl, .draw (hnamed.trans (by decide)) given
      ((View.target_iff (hat (by simp [given]))).mp htarget)
      ((View.integer_iff (hat (by simp [given]))).mp hlow)
      ((View.integer_iff (hat (by simp [given]))).mp hhigh)⟩
  · obtain ⟨target, given⟩ :=
      List.length_eq_one_iff.mp (Arity.exactly_accepts_iff.mp haccepts)
    obtain ⟨name, htarget, rfl⟩ := Command.readMoney_eq_ok.mp hasks
    exact ⟨_, rfl, .money (hnamed.trans (by decide)) given
      ((View.target_iff (hat (by simp [given]))).mp htarget)⟩
  · obtain ⟨target, goods, given⟩ :=
      List.length_eq_two.mp (Arity.exactly_accepts_iff.mp haccepts)
    obtain ⟨name, htarget, text, htext, rfl⟩ := Command.readGoods_eq_ok.mp hasks
    have hgoods : c.parameters[1]? = some goods := by simp [given]
    obtain rfl := Except.ok.inj ((View.text_of_given (hat hgoods)).symm.trans htext)
    exact ⟨_, rfl, .goods (hnamed.trans (by decide)) given
      ((View.target_iff (hat (by simp [given]))).mp htarget)⟩

theorem writes_of_asks (htable : e.table = .standard) (hasks : e.Asks c action)
    (hwrite : action.write? e.random = some x) : e.Writes c x := by
  obtain ⟨command, hresolve, hhandler⟩ := hasks
  rw [htable] at hresolve
  obtain ⟨hc, hname⟩ := CommandTable.standard_writing (v := e.view c) hresolve hhandler
    (writes_of_write? hwrite)
  obtain ⟨x', hwrite', hwrites⟩ :=
    writes_of_writer hc hname (CommandTable.resolve_eq_ok hresolve).2 hhandler
  obtain rfl := Option.some.inj (hwrite'.symm.trans hwrite)
  exact hwrites

theorem vars_of_acts {course : Except Fault Course} (h : e.Acts action e' course) :
    e'.scene.world.vars = written e.scene.world.vars (action.write? e.random).toList := by
  cases h with
  | perform performed => exact Recording.vars_of_perform performed
  | performAndPark performed => exact Recording.vars_of_perform performed
  | talk lines performed => exact Recording.vars_of_perform performed
  | _ => rfl

/-- A call that writes gives its variable the value, changes nothing else of the world, and does
not fail. -/
theorem Writes.step (h : e.Writes c x) (htable : e.table = .standard) (p : Position) :
    ∃ e', e.step p (.call c) = .ok e' ∧ e'.scene.world = e.scene.world.set x := by
  obtain ⟨action, hasks, hwrite⟩ := h.asks htable
  have hrandom : (e.arrived p).random = e.random := by rw [arrived, observe_toRunner]
  have hworld : (e.arrived p).scene.world = e.scene.world := by rw [arrived, observe_world]
  have hact : ∃ e₁, (e.arrived p).act action = .ok (e₁, .ok .next) ∧
      e₁.scene.world = e.scene.world.set x := by
    rw [← hrandom] at hwrite
    rw [← hworld]
    cases action with
    | assign name value =>
      obtain rfl := Option.some.inj hwrite
      exact ⟨_, rfl, rfl⟩
    | draw name a b =>
      obtain rfl := Option.some.inj hwrite
      exact ⟨_, rfl, rfl⟩
    | _ => cases hwrite
  obtain ⟨e₁, hact, hset⟩ := hact
  exact ⟨_, step_of_act hasks hact, (follow_world ..).trans hset⟩

theorem vars_of_step {p : Position} {i : Instruction} (htable : e.table = .standard)
    (hsilent : ∀ c, i = .call c → ∀ x, ¬e.Writes c x) (hstep : e.step p i = .ok e') :
    e'.scene.world.vars = e.scene.world.vars := by
  cases i with
  | marker name literal line =>
    obtain ⟨-, rfl⟩ := step_marker_eq_ok.mp hstep
    rfl
  | call c =>
    cases dispatched_of_dispatch hstep with
    | unresolved unknown => simp [skipFaulty, advance]
    | refused resolves refuses => rw [follow_world, observe_world]
    | @acted action e₁ course asks acts =>
      have hnone : action.write? e.random = none := by
        rw [Option.eq_none_iff_forall_ne_some]
        exact fun x hwrite => hsilent c rfl x (writes_of_asks htable (asks_observe.mp asks) hwrite)
      have hvars := vars_of_acts acts
      rw [observe_toRunner, hnone, observe_world] at hvars
      rw [follow_world]
      exact hvars

/-- A call of one of the six commands that writes nothing is refused. -/
theorem fails_of_unwritten (htable : e.table = .standard)
    (hname : CommandTable.key c.name ∈ CommandTable.writing) (hnone : ∀ x, ¬e.Writes c x) :
    ∃ f, e.Fails c f := by
  cases hresolve : e.table.resolve c with
  | error cause => exact ⟨_, .unresolved hresolve⟩
  | ok command =>
    cases hasks : command.handler (e.view c) with
    | error f => exact ⟨f, .of_refused hresolve hasks⟩
    | ok action =>
      rw [htable] at hresolve
      obtain ⟨hfind, haccepts⟩ := CommandTable.resolve_eq_ok hresolve
      rw [← Command.key_writers] at hname
      obtain ⟨writer, hwriter, hsame⟩ := List.mem_map.mp hname
      obtain rfl : command = writer := CommandTable.standard_unique hfind
        (Command.mem_standard_of_mem_writers writer hwriter) hsame.symm
      obtain ⟨x, -, hwrites⟩ := writes_of_writer hwriter hsame haccepts hasks
      exact absurd hwrites (hnone x)

end Engine

open Engine

/-- What the next round writes. -/
def Phase.Writes (s : Phase Recording) (x : Write) : Prop :=
  ∃ c, s.next? = some (.call c) ∧ s.engine.Writes c x

variable {options : Options} {s t u : Phase Recording} {log : List Write} {x : Write}

theorem Round.vars (htable : s.engine.table = .standard) (h : Round s t)
    (hsilent : ∀ x, ¬s.Writes x) : t.recording.vars = s.recording.vars := by
  cases h with
  | halt held => rfl
  | leave free runs ended leaves => rfl
  | finish free ended alone => rfl
  | yield free stands next => simp [Phase.recording, Phase.engine]
  | @step left e e' p i free stands next ran =>
    refine vars_of_step htable (fun c hc x hwrites => hsilent x ⟨c, ?_, hwrites⟩) ran
    rw [next?_of_inside left free stands next, hc]

theorem Round.writes (htable : s.engine.table = .standard) (h : Round s t) (hx : s.Writes x) :
    t.recording = s.recording.set x := by
  obtain ⟨c, hnext, hwrites⟩ := hx
  cases h with
  | @halt left e held =>
    rw [next?_of_held left held] at hnext
    cases hnext
  | @leave left e c' free runs ended leaves =>
    rw [next?_of_ended left ended] at hnext
    cases hnext
  | @finish left e free ended alone =>
    rw [next?_of_ended left ended] at hnext
    cases hnext
  | yield free stands next => cases hnext
  | @step left e e' p i free stands next ran =>
    rw [next?_of_inside left free stands next] at hnext
    obtain rfl := Option.some.inj hnext
    obtain ⟨e'', hstep, hset⟩ := hwrites.step htable p
    obtain rfl := Except.ok.inj (hstep.symm.trans ran)
    exact hset

/-- Rounds, with what they write. -/
inductive Writing (s : Phase Recording) : List Write → Phase Recording → Prop where
  | start : Writing s [] s
  | keep {log : List Write} {t u : Phase Recording} (before : Writing s log t)
      (silent : ∀ x, ¬t.Writes x) (round : Round t u) : Writing s log u
  | write {log : List Write} {t u : Phase Recording} {x : Write} (before : Writing s log t)
      (writes : t.Writes x) (round : Round t u) : Writing s (log ++ [x]) u

theorem exists_writing (h : Rounds s t) : ∃ log, Writing s log t := by
  induction h with
  | refl => exact ⟨[], .start⟩
  | @tail t u _ round ih =>
    obtain ⟨log, hlog⟩ := ih
    by_cases hwrites : ∃ x, t.Writes x
    · obtain ⟨x, hx⟩ := hwrites
      exact ⟨log ++ [x], hlog.write hx round⟩
    · exact ⟨log, hlog.keep (not_exists.mp hwrites) round⟩

theorem Writing.rounds (h : Writing s log t) : Rounds s t := by
  induction h with
  | start => exact .refl
  | keep before silent round ih => exact ih.tail round
  | write before writes round ih => exact ih.tail round

theorem written_append (vars : Dict String Int32) (first second : List Write) :
    written vars (first ++ second) = written (written vars first) second :=
  List.foldl_append ..

/-- What a run makes of the variables is what was written in it, in the order of its writes. -/
theorem Writing.vars (h : Writing s log t) (htable : s.engine.table = .standard) :
    t.recording.vars = written s.recording.vars log := by
  induction h with
  | start => rfl
  | keep before silent round ih =>
    have htable' := (Rounds.keeps before.rounds).table.trans htable
    rw [round.vars htable' silent, ih]
  | @write log t u x before writes round ih =>
    have htable' := (Rounds.keeps before.rounds).table.trans htable
    rw [written_append, ← ih, round.writes htable' writes]
    rfl

theorem get?_written {vars : Dict String Int32} {name : String}
    (h : name ∉ log.map Write.name) : (written vars log).get? name = vars.get? name := by
  induction log generalizing vars with
  | nil => rfl
  | cons x log ih =>
    rw [List.map_cons, List.mem_cons, not_or] at h
    exact (ih h.2).trans ((Dict.get?_insert ..).trans (if_neg (Ne.symm h.1)))

namespace Engine

variable {e : Engine Recording} {r : Request Recording} {o : Opening Recording}

/-- What a request itself writes: an answered selection writes its variable. -/
def picks (e : Engine Recording) : Request Recording → List Write
  | .select index => match e.chain.wait with
    | some (.selection result) => [⟨result, index⟩]
    | _ => []
  | _ => []

theorem vars_of_opening (h : e.opening r = .ok o) (hworld : r.keepsWorld = true) :
    o.phase.recording.vars = written e.scene.world.vars (e.picks r) := by
  have hstarts : ∀ (e' : Engine Recording) (script : Script) (owner : Option Owner),
      e'.scene.world = e.scene.world →
        (e'.starts script owner).phase.recording.vars = e.scene.world.vars := by
    intro e' script owner hsame
    unfold starts
    split
    · exact congrArg Recording.vars hsame
    · simp [Phase.recording, Phase.begun, Phase.engine, hsame]
  cases opened_of_opening h with
  | run found => exact hstarts _ _ _ (by simp)
  | runNothing missing inside => simp [Phase.recording, refusesAloud, refuses, Phase.engine]; rfl
  | runNothingIdle missing outside => simp [Phase.recording, refusesAloud, refuses, Phase.engine]; rfl
  | runContent parses => exact hstarts _ _ _ (by rw [foldl_report])
  | nextLine waits performed => exact Recording.vars_of_perform performed
  | select waits =>
    rw [picks, waits]
    rfl
  | @noSelection index waits =>
    have hnone : e.picks (.select index) = [] := by simp only [picks]
    rw [hnone]
    rfl
  | setWorld => cases hworld
  | _ => rfl

end Engine

/-- In a run, a variable changes where it is named. A round leaves the variables alone unless it
runs a call that writes, and such a call gives one variable its value and does nothing else to the
world; a call of one of the six commands that does not write is refused. So what a request makes of
the variables is what was written for it: first the variable of an answered selection, and then
those of the calls that were run, in their order. -/
theorem variables_change_by_name {options : Options} {s : Phase Recording}
    (hreach : Reachable .standard options s) :
    (∀ t, Round s t → (∃ x, s.Writes x ∧ t.recording = s.recording.set x) ∨
      (∀ x, ¬s.Writes x) ∧ t.recording.vars = s.recording.vars) ∧
    (∀ p c, CommandTable.key c.name ∈ CommandTable.writing →
      (∃ x e', s.engine.Writes c x ∧ s.engine.step p (.call c) = .ok e' ∧
        e'.scene.world = s.recording.set x) ∨
      (∀ x, ¬s.engine.Writes c x) ∧ ∃ f reads, (s.engine.arrived p).Fails c f ∧
        s.engine.step p (.call c) =
          .ok ((s.engine.arrived p).skipped (f.located p.script.file c.line) reads)) ∧
    ∀ e r e' result, s = .resting e → r.keepsWorld = true → e.answer r = .ok (e', result) →
      ∃ o log, e.opening r = .ok o ∧
        o.phase.recording.vars = written e.scene.world.vars (e.picks r) ∧
        Writing o.phase log (.resting e') ∧
        e'.scene.world.vars = written e.scene.world.vars (e.picks r ++ log) ∧
        ∀ name, e'.scene.world.value name ≠ e.scene.world.value name →
          name ∈ (e.picks r ++ log).map Write.name := by
  obtain ⟨htable, -, htaken⟩ := hreach.frame
  refine ⟨fun t round => ?_, fun p c hname => ?_, ?_⟩
  · by_cases hwrites : ∃ x, s.Writes x
    · obtain ⟨x, hx⟩ := hwrites
      exact Or.inl ⟨x, hx, round.writes htable hx⟩
    · have hsilent := not_exists.mp hwrites
      exact Or.inr ⟨hsilent, round.vars htable hsilent⟩
  · have htable' : (s.engine.arrived p).table = .standard := by
      rw [arrived, observe_toRunner]
      exact htable
    have htaken' : (s.engine.arrived p).scene.cache.faults = [] := by
      rw [arrived, observe_cache]
      exact htaken
    by_cases hwrites : ∃ x, s.engine.Writes c x
    · obtain ⟨x, hx⟩ := hwrites
      obtain ⟨e', hstep, hset⟩ := hx.step htable p
      exact Or.inl ⟨x, e', hx, hstep, hset⟩
    · have hsilent := not_exists.mp hwrites
      -- on its way to the line the engine leaves a trace, which no command looks at
      have hsilent' : ∀ x, ¬(s.engine.arrived p).Writes c x := by
        intro x hx
        obtain ⟨action, hasks, hwrite⟩ := hx.asks htable'
        rw [arrived, observe_toRunner] at hwrite
        exact hsilent x (writes_of_asks htable (asks_observe.mp hasks) hwrite)
      obtain ⟨f, hfails⟩ := fails_of_unwritten htable' hname hsilent'
      obtain ⟨reads, hstep⟩ := dispatch_of_fails htaken' hfails
      exact Or.inr ⟨hsilent, f, reads, hfails, hstep⟩
  · rintro e r e' result rfl hworld hanswer
    obtain ⟨o, hopen, -, hrounds⟩ := answer_eq_ok_iff.mp hanswer
    obtain ⟨log, hlog⟩ := exists_writing hrounds
    have hpicks := vars_of_opening hopen hworld
    have htable' : o.phase.engine.table = .standard :=
      (opens_of_opening hopen).2.table.trans htable
    have hvars : e'.scene.world.vars = written e.scene.world.vars (e.picks r ++ log) := by
      rw [written_append, ← hpicks]
      exact hlog.vars htable'
    refine ⟨o, log, hopen, hpicks, hlog, hvars, fun name hchanged => ?_⟩
    by_contra hname
    refine hchanged ?_
    change (e'.scene.world.vars.get? name).getD 0 = (e.scene.world.vars.get? name).getD 0
    rw [hvars, get?_written hname]

namespace Rehearsal

def choosing : String := "Choose(\"Which?\", \"Left\", \"Right\", $way);\nAdd($way, 2147483647);"

/-- An answered selection counts in the addition behind it, whose sum wraps. -/
theorem way_chosen_and_wrapped : ∃ (e e' : Engine Recording) (o : Opening Recording)
    (log : List Write),
    Reachable .standard {} (.resting e) ∧ e.picks (.select 1) = [⟨"way", 1⟩] ∧
    e.opening (.select 1) = .ok o ∧ o.phase.recording.value "way" = 1 ∧
    Writing o.phase log (.resting e') ∧
    e'.scene.world.vars = written e.scene.world.vars (⟨"way", 1⟩ :: log) ∧
    e'.scene.world.value "way" = -2147483648 := by
  obtain ⟨e, hserve, hstate⟩ := exists_ok
    (r := serve [.runContent "choosing" choosing none] (fresh .standard {} scene))
    (f := fun e => (e.chain.wait, e.scene.world.vars,
      (e.answer (.select 1)).toOption.map fun a => (a.2.toBool, a.1.scene.world.value "way")))
    (b := (some (.selection "way"), [], some (true, -2147483648))) (by decide +kernel)
  obtain ⟨hwait, hstate⟩ := Prod.mk.inj hstate
  obtain ⟨hvars, hanswered⟩ := Prod.mk.inj hstate
  obtain ⟨⟨e', result⟩, hanswer, hvalue⟩ := exists_ok hanswered
  have hreach : Reachable .standard {} (.resting e) := ⟨scene, rfl, reaches_of_serve hserve⟩
  have hpicks : e.picks (.select 1) = [⟨"way", 1⟩] := by simp only [picks, hwait]
  obtain ⟨o, log, hopen, hpicked, hlog, hwritten, -⟩ :=
    (variables_change_by_name hreach).2.2 e (.select 1) e' result rfl rfl hanswer
  rw [hpicks] at hpicked hwritten
  refine ⟨e, e', o, log, hreach, hpicks, hopen, ?_, hlog, hwritten, (Prod.mk.inj hvalue).2⟩
  change (o.phase.recording.vars.get? "way").getD 0 = 1
  rw [hpicked, hvars]
  rfl

end Rehearsal

end Cutscene
