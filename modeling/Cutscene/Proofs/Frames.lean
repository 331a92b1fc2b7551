import Cutscene.Headless
import Cutscene.Proofs.Breakdowns
import Cutscene.Proofs.Routing

/-! Frames of a run without a player. Such a run has one chain only, so what it looks at to choose
between an answer and the passing of time is what the answer then goes to, and no frame fails. The
accounts of the run are those of its frames, and a longer run goes through the same frames first. -/

namespace Cutscene

/-- What a recording may have become of another one: it still has what it was asked for before. -/
structure Recording.Extends (w w' : Recording) : Prop where
  effects : w.effects.toList <+: w'.effects.toList
  talk : w'.talk = w.talk

namespace Recording

variable {w w' w'' : Recording}

theorem Extends.refl (w : Recording) : w.Extends w := ⟨List.prefix_refl _, rfl⟩

theorem Extends.trans (h : w.Extends w') (h' : w'.Extends w'') : w.Extends w'' :=
  ⟨h.effects.trans h'.effects, h'.talk.trans h.talk⟩

theorem Extends.calls (h : w.Extends w') : w.calls <+: w'.calls := h.effects.map Effect.line

theorem apply_keeps {effect : Effect} (h : w.apply effect = .ok w') :
    w'.effects = w.effects ∧ w'.talk = w.talk := by
  cases effect with
  | addGoods name count =>
    simp only [apply] at h
    split at h
    · obtain rfl := Except.ok.inj h
      exact ⟨rfl, rfl⟩
    · cases h
  | removeGoods name count =>
    simp only [apply] at h
    split at h
    · obtain rfl := Except.ok.inj h
      exact ⟨rfl, rfl⟩
    · cases h
  | _ =>
    obtain rfl := Except.ok.inj h
    exact ⟨rfl, rfl⟩

theorem extends_of_askedOnce (h : AskedOnce w w') : w.Extends w' := by
  cases h with
  | never => exact .refl w
  | @effect effect _ performed =>
    change w.perform effect = _ at performed
    unfold perform at performed
    split at performed
    · next w₁ happly =>
      obtain rfl := Except.ok.inj performed
      obtain ⟨heffects, htalk⟩ := apply_keeps happly
      exact ⟨by simp [heffects], htalk⟩
    · cases performed
  | «variable» name value => exact ⟨List.prefix_refl _, rfl⟩

end Recording

open Engine

theorem Rounds.extends {s t : Phase Recording} (h : Rounds s t) :
    s.engine.scene.world.Extends t.engine.scene.world := by
  induction h with
  | refl => exact .refl _
  | tail _ round ih => exact ih.trans (Recording.extends_of_askedOnce round.askedOnce)

namespace Engine

variable {e e' : Engine Recording} {r : Request Recording} {result : Except Fault Unit}

theorem extends_of_opening {o : Opening Recording} (h : e.opening r = .ok o)
    (hworld : r.keepsWorld = true) :
    e.scene.world.Extends o.phase.engine.scene.world :=
  Recording.extends_of_askedOnce ((opened_of_opening h).askedOnce hworld)

theorem extends_of_answer (h : e.answer r = .ok (e', result))
    (hworld : r.keepsWorld = true) : e.scene.world.Extends e'.scene.world := by
  obtain ⟨o, hopen, -, hrounds⟩ := answer_eq_ok_iff.mp h
  exact (extends_of_opening hopen hworld).trans (Rounds.extends hrounds)

/-- The run for a request comes to a call for an effect that overtaxes the recording. -/
def Overloads (e : Engine Recording) (r : Request Recording) : Prop :=
  ∃ o s call effect wait, e.opening r = .ok o ∧ Rounds o.phase s ∧ s.next? = some (.call call) ∧
    s.engine.Asks call (.perform effect wait) ∧
    s.engine.scene.world.Overtaxed (.perform effect wait)

/-- Where there are no talk lines, only goods can overtax a recording. -/
theorem overloads_of_stumbles (h : e.Stumbles r) (htalk : e.scene.world.talk.entries = [])
    (hworld : r.keepsWorld = true) : e.Overloads r := by
  obtain ⟨o, s, call, action, hopen, hrounds, hnext, hasks, htaxed⟩ := h
  cases htaxed with
  | talk lines reversed =>
    have hkept := ((extends_of_opening hopen hworld).trans (Rounds.extends hrounds)).talk
    exact absurd (hkept ▸ htalk) lines
  | add beyond => exact ⟨o, s, call, _, _, hopen, hrounds, hnext, hasks, .add beyond⟩
  | remove beyond => exact ⟨o, s, call, _, _, hopen, hrounds, hnext, hasks, .remove beyond⟩

end Engine

namespace Director

variable {ω : Type} [World ω] {d d' : Director ω} {result : Except Fault Unit}

omit [World ω] in
theorem taker_of_alone (h : d.owned = []) (kind : Wait → Bool) : d.taker kind = none := by
  unfold taker
  rw [h]
  split
  · rfl
  · rfl

omit [World ω] in
theorem pendingEvent?_of_alone (h : d.owned = []) :
    d.pendingEvent? = d.global.chain.wait.filter Wait.isEventDriven := by
  unfold pendingEvent? chains
  rw [h]
  cases hwait : d.global.chain.wait with
  | none => simp [hwait]
  | some wait =>
    by_cases hdriven : wait.isEventDriven = true
    · simp [Option.filter, hwait, hdriven]
    · simp [Option.filter, hwait, hdriven]

def engine (d : Director ω) : Engine ω := .ofRunner d.global d.scene

theorem onChain_global {asked : Cutscene.Request ω} : d.onChain none (·.answer asked) =
    (d.engine.answer asked).map fun a => (d.restore none a.1, a.2) := onChain_there rfl

theorem reply_of_alone (h : d.owned = []) (reply : Reply) :
    d.reply reply = (d.engine.answer reply.request).map fun a => (d.restore none a.1, a.2) := by
  rw [reply_eq, taker_of_alone h, onChain_global]

theorem update_of_alone (h : d.owned = []) (elapsed : Int) :
    d.update elapsed =
      (d.engine.answer (.update elapsed)).map fun a => d.restore none a.1 := by
  have hfirst : updateChain elapsed d none =
      (d.engine.answer (.update elapsed)).map fun a => d.restore none a.1 := by
    change (d.onChain none (·.answer (.update elapsed))).map Prod.fst = _
    rw [onChain_global]
    cases d.engine.answer (.update elapsed) with
    | error crash => rfl
    | ok a => rfl
  unfold update
  rw [h]
  simp only [Dict.keys, List.map_nil, List.foldlM_cons, List.foldlM_nil, hfirst]
  cases d.engine.answer (.update elapsed) with
  | error crash => rfl
  | ok a =>
    have hkept : (d.restore none a.1).owned = [] := h
    have hswept : { d.restore none a.1 with owned := [] } = d.restore none a.1 := by rw [← hkept]
    simp only [ok_map, ok_bind, pure, Except.pure, hkept, List.filter_nil, hswept]

theorem reply_cases {wait : Wait} (reply : Reply) (h : d.owned = [])
    (hwait : d.global.chain.wait = some wait) (hkind : reply.kind wait = true) :
    (∃ e, d.engine.answer reply.request = .ok (e, .ok ()) ∧
      d.reply reply = .ok (d.restore none e, .ok ())) ∨
    ∃ crash, d.engine.answer reply.request = .error crash ∧ d.reply reply = .error crash := by
  rw [reply_of_alone h]
  have hheld : d.engine.chain.wait = some wait := hwait
  rcases answer_of_awaited hheld hkind with ⟨e, -, hanswer⟩ | ⟨crash, -, hanswer, -⟩
  · exact Or.inl ⟨e, hanswer, by rw [hanswer]; rfl⟩
  · exact Or.inr ⟨crash, hanswer, by rw [hanswer]; rfl⟩

theorem tells_of_answer {asked : Cutscene.Request ω} {e : Engine ω}
    (h : d.engine.answer asked = .ok (e, result)) (hkeeps : asked ≠ .takeDiagnostics) :
    ∃ told, d.pending none ++ told = (d.restore none e).pending none := adds_of_answer h hkeeps

end Director

namespace Headless

inductive Moment where
  | chosen (index : Int32)
  | closed
  | passed
  deriving DecidableEq

def Moment.chosen? : Moment → Option Int32
  | .chosen index => some index
  | _ => none

/-- A frame that is lived through, with what the chain tells in it. -/
inductive Lived (frameMs : Int) (p : Progress) : Moment → List Fault → Progress → Prop where
  | chosen {result : String} {d : Director Recording} {told : List Fault}
      (waits : p.director.pendingEvent? = some (.selection result))
      (answers : p.director.select (p.choices.head?.getD 0) = .ok (d, .ok ()))
      (tells : p.director.pending none ++ told = d.pending none) :
      Lived frameMs p (.chosen (p.choices.head?.getD 0)) told
        { p with
          director := d
          choices := p.choices.tail
          frames := p.frames + 1
          selections := p.selections.push (p.choices.head?.getD 0) }
  | closed {wait : Wait} {d : Director Recording} {told : List Fault}
      (waits : p.director.pendingEvent? = some wait) (dialog : wait.isDialog = true)
      (answers : p.director.closeDialog = .ok (d, .ok ()))
      (tells : p.director.pending none ++ told = d.pending none) :
      Lived frameMs p .closed told
        { p with director := d, frames := p.frames + 1, dialogs := p.dialogs + 1 }
  | passed {d : Director Recording} {told : List Fault}
      (waits : p.director.pendingEvent? = none) (passes : p.director.update frameMs = .ok d)
      (tells : p.director.pending none ++ told = d.pending none) :
      Lived frameMs p .passed told { p with director := d, frames := p.frames + 1 }

/-- The choices made in these frames. -/
def made (lived : List (Moment × List Fault)) : List Int32 := lived.filterMap fun f => f.1.chosen?

/-- Frames lived through one after the other. Before each of them a chain still runs. -/
inductive Lives (frameMs : Int) : Progress → List (Moment × List Fault) → Progress → Prop where
  | start {p : Progress} : Lives frameMs p [] p
  | frame {p p₁ p' : Progress} {m : Moment} {told : List Fault}
      {lived : List (Moment × List Fault)} (runs : (collect p).director.isAnyRunning = true)
      (first : Lived frameMs (collect p) m told p₁) (goesOn : Lives frameMs p₁ lived p') :
      Lives frameMs p ((m, told) :: lived) p'

variable {frameMs : Int} {p p' q : Progress} {m : Moment} {told : List Fault}
  {lived : List (Moment × List Fault)}

theorem Lived.answered (h : Lived frameMs p m told p') (halone : p.director.owned = []) :
    ∃ r e, r.keepsWorld = true ∧ p.director.engine.answer r = .ok (e, .ok ()) ∧
      p'.director = p.director.restore none e := by
  cases h with
  | chosen waits answers tells =>
    have hreply := (p.director.reply_of_alone halone (.chosen _)).symm.trans answers
    obtain ⟨⟨e, result⟩, hanswer, heq⟩ := map_eq_ok.mp hreply
    obtain ⟨rfl, rfl⟩ := Prod.mk.inj heq
    exact ⟨_, e, rfl, hanswer, rfl⟩
  | closed waits dialog answers tells =>
    have hreply := (p.director.reply_of_alone halone .closed).symm.trans answers
    obtain ⟨⟨e, result⟩, hanswer, heq⟩ := map_eq_ok.mp hreply
    obtain ⟨rfl, rfl⟩ := Prod.mk.inj heq
    exact ⟨_, e, rfl, hanswer, rfl⟩
  | passed waits passes tells =>
    rw [Director.update_of_alone halone] at passes
    obtain ⟨⟨e, result⟩, hanswer, rfl⟩ := map_eq_ok.mp passes
    obtain ⟨e', -, heq⟩ := map_eq_ok.mp hanswer
    obtain ⟨rfl, rfl⟩ := Prod.mk.inj heq
    exact ⟨_, e', rfl, hanswer, rfl⟩

theorem frame_of_idle (hwait : p.director.pendingEvent? = none) : frame frameMs p =
    match p.director.update frameMs with
    | .ok d => .ok { p with director := d, frames := p.frames + 1 }
    | .error crash => .error (.breakdown crash.breakdown) := by
  simp only [frame, hwait]
  rfl

theorem frame_of_selection {result : String}
    (hwait : p.director.pendingEvent? = some (.selection result)) : frame frameMs p =
      (demand (p.director.select (p.choices.head?.getD 0))).map fun d =>
        { p with
          director := d
          choices := p.choices.tail
          frames := p.frames + 1
          selections := p.selections.push (p.choices.head?.getD 0) } := by
  simp only [frame, hwait]
  rfl

theorem frame_of_dialog {wait : Wait} (hwait : p.director.pendingEvent? = some wait)
    (hdialog : wait.isDialog = true) : frame frameMs p =
      (demand p.director.closeDialog).map fun d =>
        { p with director := d, frames := p.frames + 1, dialogs := p.dialogs + 1 } := by
  cases wait with
  | dialog =>
    simp only [frame, hwait]
    rfl
  | talk lines =>
    simp only [frame, hwait]
    rfl
  | _ => cases hdialog

/-- No frame fails: it is lived through, or the world breaks down. -/
theorem frame_cases (frameMs : Int) (halone : p.director.owned = []) :
    (∃ m told p', frame frameMs p = .ok p' ∧ Lived frameMs p m told p') ∨
    ∃ r crash, r.keepsWorld = true ∧ p.director.engine.answer r = .error crash ∧
      frame frameMs p = .error (.breakdown crash.breakdown) := by
  cases hwait : p.director.pendingEvent? with
  | none =>
    have hupdate := Director.update_of_alone halone frameMs
    rw [frame_of_idle hwait]
    cases hanswer : p.director.engine.answer (.update frameMs) with
    | error crash =>
      rw [hanswer] at hupdate
      exact Or.inr ⟨_, crash, rfl, hanswer, by rw [hupdate]; rfl⟩
    | ok a =>
      rw [hanswer] at hupdate
      obtain ⟨told, htells⟩ := Director.tells_of_answer hanswer nofun
      exact Or.inl ⟨_, told, _, by rw [hupdate]; rfl, .passed hwait hupdate htells⟩
  | some wait =>
    have hpending := (Director.pendingEvent?_of_alone halone).symm.trans hwait
    -- there is one chain, so the event that is awaited is its own wait
    obtain ⟨hheld, hdriven⟩ := Option.filter_eq_some_iff.mp hpending
    by_cases hdialog : wait.isDialog = true
    · rw [frame_of_dialog hwait hdialog]
      rcases Director.reply_cases .closed halone hheld hdialog with
        ⟨e, hanswer, hreply⟩ | ⟨crash, hanswer, hreply⟩
      · obtain ⟨told, htells⟩ := Director.tells_of_answer hanswer nofun
        have hclose : p.director.closeDialog = _ := hreply
        exact Or.inl ⟨_, told, _, by rw [hclose]; rfl, .closed hwait hdialog hclose htells⟩
      · have hclose : p.director.closeDialog = _ := hreply
        exact Or.inr ⟨_, crash, rfl, hanswer, by rw [hclose]; rfl⟩
    · cases wait with
      | selection result =>
        rw [frame_of_selection hwait]
        rcases Director.reply_cases (.chosen (p.choices.head?.getD 0)) halone hheld rfl with
          ⟨e, hanswer, hreply⟩ | ⟨crash, hanswer, hreply⟩
        · obtain ⟨told, htells⟩ := Director.tells_of_answer hanswer nofun
          have hselect : p.director.select (p.choices.head?.getD 0) = _ := hreply
          exact Or.inl ⟨_, told, _, by rw [hselect]; rfl, .chosen hwait hselect htells⟩
        · have hselect : p.director.select (p.choices.head?.getD 0) = _ := hreply
          exact Or.inr ⟨_, crash, rfl, hanswer, by rw [hselect]; rfl⟩
      | dialog => exact absurd rfl hdialog
      | talk lines => exact absurd rfl hdialog
      | timer remaining => cases hdriven
      | activity a => cases hdriven

theorem collect_alone (halone : p.director.owned = []) : (collect p).director.owned = [] := by
  change p.director.takeDiagnostics.1.owned = []
  rw [Director.owned_takeDiagnostics, halone]
  rfl

theorem collect_diagnostics (halone : p.director.owned = []) :
    (collect p).diagnostics.toList = p.diagnostics.toList ++ p.director.pending none := by
  have htaken : p.director.takeDiagnostics.2 = p.director.pending none := by
    simp [Director.takeDiagnostics, Director.chains, Director.pending, Director.runner?, halone]
  simp [collect, htaken]

theorem collect_running (halone : p.director.owned = []) :
    (collect p).director.isAnyRunning = p.director.isAnyRunning := by
  simp [collect, Director.takeDiagnostics, Director.isAnyRunning, Director.chains, halone]

theorem Lived.alone (h : Lived frameMs p m told p') (halone : p.director.owned = []) :
    p'.director.owned = [] := by
  obtain ⟨r, e, -, -, hdirector⟩ := h.answered halone
  rw [hdirector]
  exact halone

theorem Lived.extends (h : Lived frameMs p m told p') (halone : p.director.owned = []) :
    p.director.scene.world.Extends p'.director.scene.world := by
  obtain ⟨r, e, hkeeps, hanswer, hdirector⟩ := h.answered halone
  rw [hdirector]
  exact extends_of_answer hanswer hkeeps

theorem Lives.alone (h : Lives frameMs p lived q) (halone : p.director.owned = []) :
    q.director.owned = [] := by
  induction h with
  | start => exact halone
  | frame runs first goesOn ih => exact ih (first.alone (collect_alone halone))

theorem Lives.extends (h : Lives frameMs p lived q) (halone : p.director.owned = []) :
    p.director.scene.world.Extends q.director.scene.world := by
  induction h with
  | start => exact .refl _
  | frame runs first goesOn ih =>
    have hcollected := collect_alone halone
    exact (first.extends hcollected).trans (ih (first.alone hcollected))

theorem Lives.frames (h : Lives frameMs p lived q) : q.frames = p.frames + lived.length := by
  induction h with
  | start => rfl
  | frame runs first goesOn ih =>
    rw [ih, List.length_cons]
    cases first with
    | _ =>
      simp only [collect]
      omega

theorem Lives.dialogs (h : Lives frameMs p lived q) :
    q.dialogs = p.dialogs + (lived.map Prod.fst).count .closed := by
  induction h with
  | start => rfl
  | frame runs first goesOn ih =>
    rw [ih, List.map_cons, List.count_cons]
    cases first with
    | _ =>
      simp only [collect]
      simp <;> omega

theorem Lives.selections (h : Lives frameMs p lived q) :
    q.selections.toList = p.selections.toList ++ made lived := by
  induction h with
  | start => simp [made]
  | frame runs first goesOn ih =>
    rw [ih]
    cases first with
    | _ => simp [collect, made, Moment.chosen?]

theorem take_padded (choices : List Int32) (n : Nat) :
    (choices ++ List.replicate (n + 1) 0).take (n + 1) =
      choices.head?.getD 0 :: (choices.tail ++ List.replicate n 0).take n := by
  cases choices with
  | nil => simp [List.replicate_succ]
  | cons choice choices =>
    have hless : min (n - choices.length) (n + 1) = min (n - choices.length) n := by omega
    simp [List.take_append, List.take_replicate, hless]

/-- A choice is the next of those given, or zero after the last of them. -/
theorem Lives.padded (h : Lives frameMs p lived q) : made lived =
    (p.choices ++ List.replicate (made lived).length 0).take (made lived).length := by
  induction h with
  | start => rfl
  | @frame p p₁ p' m told lived runs first goesOn ih =>
    cases first with
    | chosen waits answers tells =>
      have hmade : made ((.chosen ((collect p).choices.head?.getD 0), told) :: lived) =
          p.choices.head?.getD 0 :: made lived := rfl
      rw [hmade, List.length_cons, take_padded]
      exact congrArg _ ih
    | closed waits dialog answers tells => exact ih
    | passed waits passes tells => exact ih

theorem Lived.tells (h : Lived frameMs p m told p') : p'.diagnostics = p.diagnostics ∧
    p.director.pending none ++ told = p'.director.pending none := by
  cases h with
  | chosen waits answers tells => exact ⟨rfl, tells⟩
  | closed waits dialog answers tells => exact ⟨rfl, tells⟩
  | passed waits passes tells => exact ⟨rfl, tells⟩

theorem Lives.diagnostics (h : Lives frameMs p lived q) (halone : p.director.owned = []) :
    (collect q).diagnostics.toList =
      (collect p).diagnostics.toList ++ lived.flatMap Prod.snd := by
  induction h with
  | start => simp
  | @frame p p₁ p' m told lived runs first goesOn ih =>
    have hcollected := collect_alone halone
    have hempty : (collect p).director.pending none = [] := rfl
    obtain ⟨hkept, htells⟩ := first.tells
    rw [hempty, List.nil_append] at htells
    rw [ih (first.alone hcollected), collect_diagnostics (first.alone hcollected), hkept, ← htells,
      List.flatMap_cons, List.append_assoc]

theorem length_lived (lived : List (Moment × List Fault)) : lived.length =
    (lived.map Prod.fst).count .closed + (made lived).length +
      (lived.map Prod.fst).count .passed := by
  induction lived with
  | nil => rfl
  | cons f lived ih =>
    obtain ⟨m, told⟩ := f
    rw [List.length_cons, List.map_cons, List.count_cons, List.count_cons]
    cases m with
    | chosen index =>
      simp [made, Moment.chosen?] at ih ⊢
      omega
    | closed =>
      simp [made, Moment.chosen?] at ih ⊢
      omega
    | passed =>
      simp [made, Moment.chosen?] at ih ⊢
      omega

theorem frames_cases (n : Nat) (halone : p.director.owned = []) :
    (∃ ending lived q, frames frameMs n p = .ok (ending, collect q) ∧ Lives frameMs p lived q ∧
      lived.length ≤ n ∧ (ending = .done ↔ q.director.isAnyRunning = false) ∧
      (ending = .outOfFrames → lived.length = n)) ∨
    ∃ lived q r crash, frames frameMs n p = .error (.breakdown crash.breakdown) ∧
      Lives frameMs p lived q ∧ lived.length < n ∧ r.keepsWorld = true ∧
      (collect q).director.engine.answer r = .error crash := by
  induction n generalizing p with
  | zero =>
    refine Or.inl ⟨_, [], p, rfl, .start, Nat.le_refl 0, ?_, fun _ => rfl⟩
    rw [collect_running halone]
    cases p.director.isAnyRunning with
    | true => simp
    | false => simp
  | succ n ih =>
    by_cases hruns : (collect p).director.isAnyRunning = true
    · rcases frame_cases frameMs (collect_alone halone) with
        ⟨m, told, p₁, hframe, hlived⟩ | ⟨r, crash, hkeeps, hanswer, hframe⟩
      · have hrest : frames frameMs (n + 1) p = frames frameMs n p₁ := by
          simp only [frames, hruns, if_true, hframe, ok_bind]
        rw [hrest]
        rcases ih (hlived.alone (collect_alone halone)) with
          ⟨ending, lived, q, hframes, hlives, hlength, hdone, hcut⟩ |
            ⟨lived, q, r, crash, hframes, hlives, hlength, hcrash⟩
        · refine Or.inl ⟨ending, (m, told) :: lived, q, hframes, .frame hruns hlived hlives, ?_,
            hdone, fun hout => ?_⟩
          · rw [List.length_cons]
            omega
          · rw [List.length_cons, hcut hout]
        · refine Or.inr ⟨(m, told) :: lived, q, r, crash, hframes, .frame hruns hlived hlives, ?_,
            hcrash⟩
          rw [List.length_cons]
          omega
      · refine Or.inr ⟨[], p, r, crash, ?_, .start, Nat.succ_pos n, hkeeps, hanswer⟩
        simp only [frames, hruns, if_true, hframe, error_bind]
    · rw [Bool.not_eq_true] at hruns
      refine Or.inl ⟨.done, [], p, ?_, .start, Nat.zero_le _, ?_, nofun⟩
      · simp only [frames, hruns, Bool.false_eq_true, if_false]
      · rw [← collect_running halone, hruns]
        simp

variable {n n' : Nat} {ending ending' : Ending}

theorem frames_of_done (h : frames frameMs n p = .ok (.done, q)) (hle : n ≤ n') :
    frames frameMs n' p = .ok (.done, q) := by
  induction n generalizing p n' with
  | zero =>
    cases n' with
    | zero => exact h
    | succ n' =>
      by_cases hruns : (collect p).director.isAnyRunning = true
      · simp [frames, hruns] at h
      · rw [Bool.not_eq_true] at hruns
        simp only [frames, hruns, Bool.false_eq_true, if_false] at h ⊢
        exact h
  | succ n ih =>
    obtain ⟨n', rfl⟩ : ∃ k, n' = k + 1 := ⟨n' - 1, by omega⟩
    by_cases hruns : (collect p).director.isAnyRunning = true
    · simp only [frames, hruns, if_true] at h ⊢
      obtain ⟨p₁, hframe, hrest⟩ := bind_eq_ok.mp h
      rw [hframe, ok_bind]
      exact ih hrest (by omega)
    · rw [Bool.not_eq_true] at hruns
      simp only [frames, hruns, Bool.false_eq_true, if_false] at h ⊢
      exact h

/-- A run goes first through what a shorter run comes to. -/
theorem frames_truncated (halone : p.director.owned = []) (hle : n ≤ n')
    (h : frames frameMs n' p = .ok (ending', p')) :
    ∃ ending q, frames frameMs n p = .ok (ending, q) ∧
      q.selections.toList <+: p'.selections.toList ∧
      q.director.scene.world.Extends p'.director.scene.world ∧
      (ending = .done → ending' = .done ∧ p' = q) := by
  induction n generalizing p n' with
  | zero =>
    refine ⟨_, collect p, rfl, ?_⟩
    rcases frames_cases n' halone with
      ⟨ending₁, lived, q, hframes, hlives, -⟩ | ⟨lived, q, r, crash, hframes, -⟩
    · obtain ⟨rfl, rfl⟩ := Prod.mk.inj (Except.ok.inj (h.symm.trans hframes))
      have hselections : q.selections.toList = p.selections.toList ++ made lived :=
        hlives.selections
      refine ⟨⟨made lived, hselections.symm⟩, hlives.extends halone, fun hdone => ?_⟩
      have hshort : frames frameMs 0 p = .ok (.done, collect p) := by rw [frames, hdone]
      have hlong := (frames_of_done hshort hle).symm.trans h
      obtain ⟨hdone', hsame⟩ := Prod.mk.inj (Except.ok.inj hlong)
      exact ⟨hdone'.symm, hsame.symm⟩
    · rw [hframes] at h
      cases h
  | succ n ih =>
    obtain ⟨n', rfl⟩ : ∃ k, n' = k + 1 := ⟨n' - 1, by omega⟩
    by_cases hruns : (collect p).director.isAnyRunning = true
    · simp only [frames, hruns, if_true] at h ⊢
      rcases frame_cases frameMs (collect_alone halone) with
        ⟨m, told, p₁, hframe, hlived⟩ | ⟨r, crash, -, -, hframe⟩
      · rw [hframe, ok_bind] at h ⊢
        exact ih (hlived.alone (collect_alone halone)) (by omega) h
      · rw [hframe, error_bind] at h
        cases h
    · rw [Bool.not_eq_true] at hruns
      simp only [frames, hruns, Bool.false_eq_true, if_false] at h ⊢
      obtain ⟨rfl, rfl⟩ := Prod.mk.inj (Except.ok.inj h)
      exact ⟨.done, _, rfl, List.prefix_refl _, .refl _, fun _ => ⟨rfl, rfl⟩⟩

/-- Where a run begins: nothing is there but the variables and the scripts. -/
def stage (scripts : Shelf) (vars : Dict String Int32) : Scene Recording where
  world := { vars }
  cache := { read := (Shelf.ofFiles scripts).read }

/-- What a report says of a run that has started with a director and lived through these frames. -/
structure Accounts (plan : Plan) (d : Director Recording) (lived : List (Moment × List Fault))
    (q : Progress) (r : Report) : Prop where
  lives : Lives plan.frameMs { director := d, choices := plan.choices } lived q
  frames : r.frames = lived.length
  bounded : r.frames ≤ plan.maxFrames
  dialogs : r.dialogs = (lived.map Prod.fst).count .closed
  selections : r.selections = made lived
  kinds : r.frames = r.dialogs + r.selections.length + (lived.map Prod.fst).count .passed
  padded : r.selections =
    (plan.choices ++ List.replicate r.selections.length 0).take r.selections.length
  ended : r.ending = .done ↔ q.director.isAnyRunning = false
  cut : r.ending = .outOfFrames → r.frames = plan.maxFrames
  diagnostics : r.diagnostics = d.pending none ++ lived.flatMap Prod.snd
  /-- There is no chain but the one whose diagnostics these are. -/
  alone : q.director.owned = []
  calls : r.calls = q.director.scene.world.calls
  vars : r.vars = q.director.scene.world.vars

variable {scripts : Shelf} {vars : Dict String Int32} {options : Options} {plan : Plan}
  {d : Director Recording}

theorem alone_of_start
    (h : (Director.ofOptions options (stage scripts vars)).runScript plan.entry none =
      .ok (d, .ok ())) : d.owned = [] ∧ d.scene.world.talk.entries = [] := by
  have honchain : (Director.ofOptions options (stage scripts vars)).onChain none
      (·.answer (.run plan.entry none)) = .ok (d, .ok ()) := h
  rw [Director.onChain_global] at honchain
  obtain ⟨⟨e, result⟩, hanswer, heq⟩ := map_eq_ok.mp honchain
  obtain ⟨rfl, -⟩ := Prod.mk.inj heq
  exact ⟨rfl, congrArg TalkTable.entries (extends_of_answer hanswer rfl).talk⟩

theorem run_of_start
    (h : (Director.ofOptions options (stage scripts vars)).runScript plan.entry none =
      .ok (d, .ok ())) : run scripts vars options plan =
        (Headless.frames plan.frameMs plan.maxFrames
          { director := d, choices := plan.choices }).map fun a => report plan a.1 a.2 := by
  have hdemand : demand ((Director.ofOptions options (stage scripts vars)).runScript plan.entry
      none) = .ok d := by rw [h]; rfl
  change (demand ((Director.ofOptions options (stage scripts vars)).runScript plan.entry none) >>=
    _) = _
  rw [hdemand, ok_bind]
  cases Headless.frames plan.frameMs plan.maxFrames { director := d, choices := plan.choices } with
  | error halt => rfl
  | ok a => rfl

theorem accounts_of_lives {lived : List (Moment × List Fault)} {q : Progress} {ending : Ending}
    (halone : d.owned = [])
    (hlives : Lives plan.frameMs { director := d, choices := plan.choices } lived q)
    (hlength : lived.length ≤ plan.maxFrames)
    (hdone : ending = .done ↔ q.director.isAnyRunning = false)
    (hcut : ending = .outOfFrames → lived.length = plan.maxFrames) :
    Accounts plan d lived q (report plan ending (collect q)) := by
  have hframes : q.frames = lived.length := by simpa using hlives.frames
  have hdialogs : q.dialogs = (lived.map Prod.fst).count .closed := by simpa using hlives.dialogs
  have hselections : q.selections.toList = made lived := by simpa using hlives.selections
  have hstart : (collect { director := d, choices := plan.choices }).diagnostics.toList =
      d.pending none := by
    rw [collect_diagnostics halone]
    rfl
  refine ⟨hlives, hframes, Nat.le_trans (Nat.le_of_eq hframes) hlength, hdialogs, hselections, ?_,
    ?_, hdone, fun hout => hframes.trans (hcut hout), ?_, hlives.alone halone, rfl, rfl⟩
  · change q.frames = q.dialogs + q.selections.toList.length + _
    rw [hframes, hdialogs, hselections]
    exact length_lived lived
  · change q.selections.toList = (plan.choices ++ List.replicate q.selections.toList.length 0).take
      q.selections.toList.length
    rw [hselections]
    exact hlives.padded
  · rw [← hstart]
    exact hlives.diagnostics halone

/-- Once its entry has started, a run without a player comes to a report that accounts for every
frame, unless it breaks down: a clock runs over, or the number of some goods, or the count of a label.
A run with fewer frames comes to what a longer one goes through first. -/
theorem run_accounts_for_frames
    (hstart : (Director.ofOptions options (stage scripts vars)).runScript plan.entry none =
      .ok (d, .ok ())) :
    ((∃ r lived q, run scripts vars options plan = .ok r ∧ Accounts plan d lived q r) ∨
      ∃ lived q asked crash, run scripts vars options plan = .error (.breakdown crash.breakdown) ∧
        Lives plan.frameMs { director := d, choices := plan.choices } lived q ∧
        lived.length < plan.maxFrames ∧ (collect q).director.engine.answer asked = .error crash ∧
        ((collect q).director.engine.Outruns asked ∨
          (collect q).director.engine.Overloads asked ∨
            (collect q).director.engine.Overcounts asked)) ∧
    ∀ m m', m ≤ m' →
      (∀ r', run scripts vars options { plan with maxFrames := m' } = .ok r' →
        ∃ r, run scripts vars options { plan with maxFrames := m } = .ok r ∧
          r.calls <+: r'.calls ∧ r.selections <+: r'.selections ∧ (r.ending = .done → r' = r)) ∧
      ∀ r, run scripts vars options { plan with maxFrames := m } = .ok r → r.ending = .done →
        run scripts vars options { plan with maxFrames := m' } = .ok r := by
  obtain ⟨halone, htalk⟩ := alone_of_start hstart
  constructor
  · rw [run_of_start hstart]
    rcases frames_cases plan.maxFrames
      (p := { director := d, choices := plan.choices }) halone with
      ⟨ending, lived, q, hframes, hlives, hlength, hdone, hcut⟩ |
        ⟨lived, q, asked, crash, hframes, hlives, hlength, hkeeps, hanswer⟩
    · refine Or.inl ⟨_, lived, q, by rw [hframes, ok_map], ?_⟩
      exact accounts_of_lives halone hlives hlength hdone hcut
    · refine Or.inr
        ⟨lived, q, asked, crash, by rw [hframes, error_map], hlives, hlength, hanswer, ?_⟩
      refine (answer_error_iff.mp ⟨crash, hanswer⟩).imp_right (Or.imp_left fun hstumbles => ?_)
      have hsilent : (collect q).director.engine.scene.world.talk.entries = [] :=
        (congrArg TalkTable.entries (hlives.extends halone).talk).trans htalk
      exact overloads_of_stumbles hstumbles hsilent hkeeps
  · intro m m' hle
    have hrun : ∀ k, run scripts vars options { plan with maxFrames := k } =
        (Headless.frames plan.frameMs k { director := d, choices := plan.choices }).map fun a =>
          report plan a.1 a.2 := fun k => run_of_start hstart
    simp only [hrun]
    constructor
    · intro r' hr'
      obtain ⟨⟨ending', p'⟩, hframes, rfl⟩ := map_eq_ok.mp hr'
      obtain ⟨ending, q, hshort, hselections, hworld, hdone⟩ := frames_truncated halone hle hframes
      refine ⟨_, by rw [hshort, ok_map], hworld.calls, hselections, fun hended => ?_⟩
      obtain ⟨rfl, rfl⟩ := hdone hended
      rw [show ending = .done from hended]
    · intro r hr hended
      obtain ⟨⟨ending, q⟩, hframes, rfl⟩ := map_eq_ok.mp hr
      obtain rfl : ending = .done := hended
      rw [frames_of_done hframes hle, ok_map]

end Headless

namespace Rehearsal

open Headless

def walk : Shelf :=
  [("walk",
    "Say(\"Here.\");\nChoose(\"Which?\", \"Left\", \"Right\", $way);\nDance(1);\nSleep(20);")]

def hoard : Shelf :=
  [("hoard", "Sleep(1);\nAddGoods(\"gem\", 2147483647);\nAddGoods(\"gem\", 1);")]

def begun (scripts : Shelf) (entry : String) : Except Halt (Director Recording) :=
  demand ((Director.ofOptions {} (stage scripts [])).runScript entry none)

theorem start_of_begun {scripts : Shelf} {entry : String} {d : Director Recording}
    (h : begun scripts entry = .ok d) :
    (Director.ofOptions {} (stage scripts [])).runScript entry none = .ok (d, .ok ()) := by
  unfold begun demand at h
  split at h
  · cases h
  · cases h
  · next started hstart =>
    obtain rfl := Except.ok.inj h
    exact hstart

def hoarding : Headless.Plan := { entry := "hoard" }

def halted? {α : Type} (r : Except Halt α) : Option Breakdown :=
  match r with
  | .error (.breakdown b) => some b
  | _ => none

theorem eq_of_halted? {α : Type} {r : Except Halt α} {b : Breakdown}
    (h : halted? r = some b) : r = .error (.breakdown b) := by
  unfold halted? at h
  split at h
  · rw [Option.some.inj h]
  · cases h

theorem hoard_breaks_down :
    (∃ d, (Director.ofOptions {} (stage hoard [])).runScript hoarding.entry none =
      .ok (d, .ok ())) ∧
      Headless.run hoard [] {} hoarding = .error (.breakdown (.goodsCount "gem")) := by
  obtain ⟨d, hbegun, hframes⟩ := exists_ok (r := begun hoard hoarding.entry)
    (f := fun d => halted? (frames hoarding.frameMs hoarding.maxFrames
      { director := d, choices := hoarding.choices }))
    (b := some (.goodsCount "gem")) (by decide +kernel)
  have hstart := start_of_begun hbegun
  refine ⟨⟨d, hstart⟩, ?_⟩
  rw [run_of_start hstart, eq_of_halted? hframes, error_map]

def walking : Headless.Plan := { entry := "walk", choices := [1] }

theorem walk_accounted : ∃ d r lived q,
    (Director.ofOptions {} (stage walk [])).runScript walking.entry none = .ok (d, .ok ()) ∧
      Headless.run walk [] {} walking = .ok r ∧ Accounts walking d lived q r ∧
      (r.ending, r.frames, r.dialogs, r.selections) = (.done, 4, 1, [1]) := by
  obtain ⟨d, hbegun, hframes⟩ := exists_ok (r := begun walk walking.entry)
    (f := fun d => ((frames walking.frameMs walking.maxFrames
      { director := d, choices := walking.choices }).map fun a => report walking a.1 a.2).toOption.map
        fun r => (r.ending, r.frames, r.dialogs, r.selections))
    (b := some (.done, 4, 1, [1])) (by decide +kernel)
  have hstart := start_of_begun hbegun
  rw [← run_of_start hstart] at hframes
  obtain ⟨r, hr, hreport⟩ := Option.map_eq_some_iff.mp hframes
  rcases (run_accounts_for_frames hstart).1 with
    ⟨r', lived, q, hrun, haccounts⟩ | ⟨lived, q, asked, crash, hbreakdown, -⟩
  · rw [hrun] at hr
    obtain rfl : r' = r := Option.some.inj hr
    exact ⟨d, r', lived, q, hstart, hrun, haccounts, hreport⟩
  · rw [hbreakdown] at hr
    cases hr

end Rehearsal

end Cutscene
