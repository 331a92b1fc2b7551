import Cutscene.Proofs.Failure
import Cutscene.Proofs.Overtaxing
import Cutscene.Proofs.Sleeping
import Mathlib.Data.List.Sort

/-! Talks. A talk shows the first line of its range at once and keeps the others. Every dialog that
is closed shows the next of them, paused or not, until one is closed with none left, after which the
chain goes on. -/

namespace Cutscene

/-- The entries of a talk table with numbers between two ends, in the order of these. -/
structure IsRange (talk : TalkTable) (first last : Int32)
    (entries : List (Int32 × TalkLine)) : Prop where
  ascending : entries.Pairwise (·.1 < ·.1)
  entry : ∀ id line,
    (id, line) ∈ entries ↔ talk.entries.get? id = some line ∧ first ≤ id ∧ id ≤ last

/-- What has come of a talk: whether the chain is paused, and how many of its dialogs were
closed. -/
structure Telling where
  paused : Bool := false
  closed : Nat := 0
  deriving DecidableEq

namespace Telling

variable {ω : Type}

def next (t : Telling) : Request ω → Telling
  | .closeDialog => { t with closed := t.closed + 1 }
  | .pause => { t with paused := true }
  | .resume => { t with paused := false }
  | _ => t

def after (t : Telling) (rs : List (Request ω)) : Telling := rs.foldl next t

theorem closed_le_next (t : Telling) (r : Request ω) : t.closed ≤ (t.next r).closed := by
  cases r with
  | closeDialog => exact Nat.le_succ _
  | _ => exact le_rfl

theorem closed_le_after (t : Telling) (rs : List (Request ω)) :
    t.closed ≤ (t.after rs).closed := by
  induction rs generalizing t with
  | nil => exact le_rfl
  | cons r rs ih => exact (t.closed_le_next r).trans (ih (t.next r))

end Telling

namespace Recording

/-- The recording after some more lines were shown. -/
def shown (w : Recording) (lines : List TalkLine) : Recording :=
  { w with
    effects := w.effects ++ (lines.map fun line => Effect.dialog line.text line.portrait).toArray }

variable {w : Recording} {first last : Int32} {entries : List (Int32 × TalkLine)}

@[simp] theorem shown_nil : w.shown [] = w := by simp [shown]

theorem shown_shown (lines more : List TalkLine) :
    (w.shown lines).shown more = w.shown (lines ++ more) := by
  simp [shown]

theorem perform_dialog (line : TalkLine) :
    World.perform w (.dialog line.text line.portrait) = .ok (w.shown [line]) := by
  simp only [shown, List.map_cons, List.map_nil, ← Array.push_eq_append]
  rfl

/-- A range that has its ends the right way round is what the table holds between them. -/
theorem talkLines?_of_isRange (hrange : IsRange w.talk first last entries) (hends : first ≤ last) :
    World.talkLines? w first last = some (entries.map Prod.snd) := by
  have hmem : ∀ p, p ∈ entries ↔ p ∈ w.talk.entries ∧ first ≤ p.1 ∧ p.1 ≤ last := by
    rintro ⟨id, line⟩
    have hget : w.talk.entries.get? id = some line ↔ (id, line) ∈ w.talk.entries :=
      ⟨Dict.mem_of_get?, Dict.get?_of_mem w.talk.sorted⟩
    rw [hrange.entry, hget]
  change w.talkLines? first last = _
  unfold talkLines?
  split
  · next hempty =>
    have hnone : entries = [] := by
      refine List.eq_nil_iff_forall_not_mem.mpr fun p hp => ?_
      rw [hmem, List.isEmpty_iff.mp hempty] at hp
      exact List.not_mem_nil hp.1
    rw [hnone, List.map_nil]
  · rw [if_neg (Int32.not_lt.mpr hends)]
    have hascending : Std.Irrefl fun p q : Int32 × TalkLine => p.1 < q.1 :=
      ⟨fun p => Int32.lt_irrefl⟩
    have hantisymm : Std.Antisymm fun p q : Int32 × TalkLine => p.1 < q.1 :=
      ⟨fun p q hpq hqp => absurd hqp (Int32.lt_asymm hpq)⟩
    have hsame := List.Pairwise.eq_of_mem_iff hrange.ascending
      (w.talk.sorted.filter fun p => decide (first ≤ p.1) && decide (p.1 ≤ last))
      fun p => by rw [hmem, List.mem_filter, Bool.and_eq_true, decide_eq_true_eq, decide_eq_true_eq]
    rw [hsame]
    rfl

end Recording

namespace Engine

/-- An engine that stands in a talk, as it is after so many of the lines left were shown. -/
def telling (e : Engine Recording) (rest : List TalkLine) (t : Telling) : Engine Recording :=
  (e.withWorld (e.scene.world.shown (rest.take t.closed))).withChain
    { e.chain with wait := some (.talk (rest.drop t.closed)), paused := t.paused }

variable {e e' : Engine Recording} {rest : List TalkLine} {t : Telling} {r : Request Recording}
  {p : Position} {call : Call} {first last : Int32} {line : TalkLine}

theorem telling_start (hwait : e.chain.wait = some (.talk rest)) (hready : e.chain.paused = false) :
    e.telling rest {} = e := by
  simp only [telling, List.take_zero, List.drop_zero, Recording.shown_nil, ← hwait, ← hready]
  rfl

theorem isHeld_telling : (e.telling rest t).isHeld = true := isHeld_of_wait rfl

/-- No frame ends a talk, however long it lasts. -/
theorem answer_update_telling (elapsed : Int) :
    (e.telling rest t).answer (.update elapsed) = .ok (e.telling rest t, .ok ()) := by
  have hstays : (e.telling rest t).update elapsed = .ok (e.telling rest t) := by
    have hwait : (e.telling rest t).chain.wait = some (.talk (rest.drop t.closed)) := rfl
    unfold update
    split
    · rfl
    · simp only [hwait, Wait.poll, ok_bind, park_self hwait]
      rfl
  simp only [answer, hstays, succeed, ok_map]

theorem answer_select_telling (index : Int32) : (e.telling rest t).answer (.select index) =
    .ok (e.telling rest t, .error { cause := .noSelection }) := rfl

/-- A dialog that is closed with lines left shows the next of them. -/
theorem answer_closeDialog_telling (hleft : t.closed < rest.length) :
    (e.telling rest t).answer .closeDialog =
      .ok (e.telling rest { t with closed := t.closed + 1 }, .ok ()) := by
  have hwait : (e.telling rest t).chain.wait =
      some (.talk (rest[t.closed] :: rest.drop (t.closed + 1))) := by
    rw [← List.drop_eq_getElem_cons hleft]
    rfl
  have hperform : (e.telling rest t).perform (.dialog rest[t.closed].text rest[t.closed].portrait) =
      .ok ((e.telling rest t).withWorld
        (e.scene.world.shown (rest.take (t.closed + 1)))) := by
    refine perform_eq_ok.mpr ⟨_, Recording.perform_dialog _, ?_⟩
    have hshown : (e.telling rest t).scene.world = e.scene.world.shown (rest.take t.closed) := rfl
    rw [hshown, Recording.shown_shown, List.take_append_getElem hleft]
  simp only [answer, closeDialog, hwait, hperform, ok_bind]
  rfl

/-- A dialog that is closed with no line left ends the talk. -/
theorem answer_closeDialog_told (htold : t.closed = rest.length) :
    (e.telling rest t).answer .closeDialog =
      succeed ((e.withWorld (e.scene.world.shown rest)).withChain
        { e.chain with wait := none, paused := t.paused }.advance).execute := by
  have hwait : (e.telling rest t).chain.wait = some (.talk []) := by
    have hdrop : rest.drop t.closed = [] := by rw [htold, List.drop_length]
    simp only [telling, withChain_chain, hdrop]
  have htake : rest.take t.closed = rest := by rw [htold, List.take_length]
  simp only [answer, closeDialog, hwait, goOn]
  rw [telling, htake]
  rfl

/-- No request that drives the chain does more to a talk with enough lines than to count for it. -/
theorem answer_telling (hrun : e.chain.isRunning = true) (hdrives : r.drives = true)
    (hleft : (t.next r).closed ≤ rest.length) :
    ∃ result, (e.telling rest t).answer r = .ok (e.telling rest (t.next r), result) := by
  cases r with
  | execute => exact ⟨_, answer_execute_of_held isHeld_telling⟩
  | update elapsed => exact ⟨_, answer_update_telling elapsed⟩
  | closeDialog => exact ⟨_, answer_closeDialog_telling hleft⟩
  | select index => exact ⟨_, answer_select_telling index⟩
  | pause =>
    refine ⟨.ok (), ?_⟩
    have hruns : (e.telling rest t).chain.isRunning = true := hrun
    rw [answer, pause, if_pos hruns]
    rfl
  | resume => exact ⟨.ok (), rfl⟩
  | _ => cases hdrives

/-- Each dialog that is closed shows one line, as long as there are lines left. -/
theorem serve_telling {rs : List (Request Recording)} (hrun : e.chain.isRunning = true)
    (hdrives : ∀ r ∈ rs, r.drives = true) (hleft : (t.after rs).closed ≤ rest.length) :
    serve rs (e.telling rest t) = .ok (e.telling rest (t.after rs)) := by
  induction rs generalizing t with
  | nil => rfl
  | cons r rs ih =>
    have hfirst : (t.next r).closed ≤ rest.length := ((t.next r).closed_le_after rs).trans hleft
    obtain ⟨result, hanswer⟩ := answer_telling hrun (hdrives r List.mem_cons_self) hfirst
    rw [serve, hanswer, ok_bind, ih (fun q hq => hdrives q (List.mem_cons_of_mem _ hq)) hleft]
    rfl

theorem asks_talk {command : Command} (hresolve : e.table.resolve call = .ok command)
    (htalk : command.handler = Command.talk) (hfirst : (e.view call).integer 0 = .ok first)
    (hlast : (e.view call).integerOr 1 first = .ok last) : e.Asks call (.talk first last) := by
  refine ⟨command, hresolve, ?_⟩
  rw [htalk]
  simp only [Command.talk, hfirst, hlast, ok_bind]
  rfl

/-- A talk shows its first line at once and waits with the others. -/
theorem step_talk (hfree : e.chain.wait = none) (hasks : e.Asks call (.talk first last))
    (hlines : World.talkLines? e.scene.world first last = some (line :: rest)) :
    ∃ talked, e.step p (.call call) = .ok talked ∧
      talked.chain = { e.chain with wait := some (.talk rest) } ∧
      talked.scene.world = e.scene.world.shown [line] := by
  have hact : (e.arrived p).act (.talk first last) =
      .ok (((e.arrived p).withWorld (e.scene.world.shown [line])).park (.talk rest),
        .ok .parked) := by
    have hworld : (e.arrived p).scene.world = e.scene.world := by simp [arrived]
    have hshown : (e.arrived p).perform (.dialog line.text line.portrait) =
        .ok ((e.arrived p).withWorld (e.scene.world.shown [line])) :=
      perform_eq_ok.mpr ⟨_, by rw [hworld]; exact Recording.perform_dialog line, rfl⟩
    have hstill : (e.arrived p).chain.wait = none := by simpa [arrived] using hfree
    have hbegun := beginWait_of_free
      (e := (e.arrived p).withWorld (e.scene.world.shown [line])) hstill (.talk rest)
    simp only [act, talk, hworld, hlines, hshown, hbegun, ok_bind]
    rfl
  refine ⟨_, step_of_act hasks hact, ?_, ?_⟩
  · simp [follow, arrived]
  · simp [follow_world]

/-- A range that holds no line is reported, and the chain goes on behind the call. -/
theorem step_talk_empty (hasks : e.Asks call (.talk first last))
    (hlines : World.talkLines? e.scene.world first last = some []) :
    ∃ passed, e.step p (.call call) = .ok passed ∧ passed.chain = e.chain.advance ∧
      passed.scene.world = e.scene.world ∧
      passed.diagnostics = e.reportLines.diagnostics.push
        { cause := .talkEmpty first last, location := some ⟨p.script.file, call.line⟩ } := by
  have hact : (e.arrived p).act (.talk first last) =
      .ok (e.arrived p, .error { cause := .talkEmpty first last }) := by
    have hworld : (e.arrived p).scene.world = e.scene.world := by simp [arrived]
    simp only [act, talk, hworld, hlines]
  refine ⟨_, step_of_act hasks hact, ?_, ?_, ?_⟩
  · simp [follow, arrived, skipFaulty, advance]
  · simp [follow_world, arrived]
  · have hlines : (e.arrived p).reportLines.diagnostics = e.reportLines.diagnostics := by
      simp [reportLines_eq, arrived]
    rw [← hlines]
    rfl

end Engine

open Engine

/-- A talk tells what its range holds, by number, and every line once: the first at once, and the
next for each dialog that is closed. Whatever else drives the chain shows nothing and leaves it at
the call; a dialog that is closed with no line left lets it go on behind. A range that holds nothing
is reported, and the chain goes on at once. -/
theorem talk_tells_range {e : Engine Recording} {p : Position} {call : Call} {command : Command}
    {first last : Int32} {entries : List (Int32 × TalkLine)}
    (hfree : e.isHeld = false) (hp : e.chain.position = some p)
    (hi : p.instruction? = some (.call call)) (hresolve : e.table.resolve call = .ok command)
    (htalk : command.handler = Command.talk) (hfirst : (e.view call).integer 0 = .ok first)
    (hlast : (e.view call).integerOr 1 first = .ok last) (hends : first ≤ last)
    (hrange : IsRange e.scene.world.talk first last entries) :
    (entries = [] → ∃ passed : Engine Recording, (∀ left, e.steps (left + 1) = passed.steps left) ∧
      passed.chain = e.chain.advance ∧ passed.scene.world = e.scene.world ∧
      ∃ f, f.code = "COMMAND_TALK_EMPTY" ∧ f.location = some ⟨p.script.file, call.line⟩ ∧
        passed.diagnostics = e.reportLines.diagnostics.push f) ∧
    ∀ line rest, entries.map Prod.snd = line :: rest →
      ∃ talked : Engine Recording, (∀ left, e.steps (left + 1) = .ok talked) ∧
        talked.chain = { e.chain with wait := some (.talk rest) } ∧
        talked.scene.world = e.scene.world.shown [line] ∧
        ∀ rs : List (Request Recording), (∀ r ∈ rs, r.drives = true) →
          (Telling.after {} rs).closed ≤ rest.length →
          let t := Telling.after {} rs
          let held := talked.telling rest t
          serve rs talked = .ok held ∧
            held.scene.world = e.scene.world.shown (line :: rest.take t.closed) ∧
            held.chain = { e.chain with
              wait := some (.talk (rest.drop t.closed)), paused := t.paused } ∧
            (∀ index, held.answer (.select index) =
              .ok (held, .error { cause := .noSelection })) ∧
            (t.closed = rest.length → held.answer .closeDialog =
              succeed ((talked.withWorld (e.scene.world.shown (line :: rest))).withChain
                { e.chain.advance with paused := t.paused }).execute) := by
  have hasks : e.Asks call (.talk first last) := asks_talk hresolve htalk hfirst hlast
  have hlines : World.talkLines? e.scene.world first last = some (entries.map Prod.snd) :=
    Recording.talkLines?_of_isRange hrange hends
  constructor
  · rintro rfl
    obtain ⟨passed, hstep, hchain, hworld, hreport⟩ := step_talk_empty (p := p) hasks hlines
    have hruns : ∀ left, e.steps (left + 1) = passed.steps left :=
      fun _ => steps_of_step hfree hp hi hstep
    exact ⟨passed, hruns, hchain, hworld, _, rfl, rfl, hreport⟩
  · intro line rest hentries
    rw [hentries] at hlines
    obtain ⟨talked, hstep, hchain, hworld⟩ := step_talk (p := p) (wait_of_free hfree) hasks hlines
    have hwait : talked.chain.wait = some (.talk rest) := by rw [hchain]
    have hready : talked.chain.paused = false := by rw [hchain]; exact paused_of_free hfree
    have hrun : talked.chain.isRunning = true := by rw [hchain]; exact isRunning_of_free hfree
    have hrests : ∀ left, e.steps (left + 1) = .ok talked :=
      fun _ => steps_of_last hfree hp hi hstep (isHeld_of_wait hwait)
    refine ⟨talked, hrests, hchain, hworld, fun rs hdrives hleft => ?_⟩
    intro t held
    -- what the host does while the talk goes on shows in `t` alone
    have hserve := serve_telling (t := {}) hrun hdrives hleft
    rw [telling_start hwait hready] at hserve
    refine ⟨hserve, ?_, ?_, answer_select_telling, fun htold => ?_⟩
    · change talked.scene.world.shown (rest.take t.closed) = _
      rw [hworld, Recording.shown_shown]
      rfl
    · change { talked.chain with
        wait := some (.talk (rest.drop t.closed)), paused := t.paused } = _
      rw [hchain]
    · rw [answer_closeDialog_told htold, hworld, Recording.shown_shown, hchain]
      have hwoken : { e.chain with wait := none, paused := t.paused }.advance =
          { e.chain.advance with paused := t.paused } := by
        rw [← wait_of_free hfree]
        rfl
      rw [← hwoken]
      rfl

namespace Rehearsal

def welcome : TalkLine := ⟨"Welcome.", 1⟩

def farewell : TalkLine := ⟨"Good night.", 2⟩

def innkeeper : Recording :=
  { talk := ⟨[(10, welcome), (12, farewell), (15, ⟨"Thieves!", 3⟩)],
    by unfold Dict.Sorted; decide⟩ }

def chat : Script := (Script.parse "chat" "Talk(10, 14);\nTalk(13, 14);").script

def speaking : CommandTable := Command.speech.foldl CommandTable.register []

/-- A chain at one of the two talks, which is still to come. -/
def guest (i : Nat) : Engine Recording :=
  (fresh speaking {} { scene with world := innkeeper }).withChain
    { Chain.enter {} chat with line := i }

def evening : Call := ⟨"Talk", ["10", "14"], "", "Talk(10, 14);", 1⟩

def night : Call := ⟨"Talk", ["13", "14"], "", "Talk(13, 14);", 2⟩

theorem range_of_evening : IsRange innkeeper.talk 10 14 [(10, welcome), (12, farewell)] := by
  refine ⟨by decide, fun id line => ?_⟩
  constructor
  · intro hmem
    simp only [List.mem_cons, Prod.mk.injEq, List.not_mem_nil, or_false] at hmem
    rcases hmem with ⟨rfl, rfl⟩ | ⟨rfl, rfl⟩
    · decide
    · decide
  · rintro ⟨hget, -, hhigh⟩
    have hmem := Dict.mem_of_get? hget
    simp only [innkeeper, List.mem_cons, Prod.mk.injEq, List.not_mem_nil, or_false] at hmem ⊢
    rcases hmem with hmem | hmem | ⟨rfl, -⟩
    · exact Or.inl hmem
    · exact Or.inr hmem
    · exact absurd hhigh (by decide)

theorem range_of_night : IsRange innkeeper.talk 13 14 [] := by
  refine ⟨List.Pairwise.nil, fun id line => iff_of_false List.not_mem_nil ?_⟩
  rintro ⟨hget, hlow, hhigh⟩
  have hmem := Dict.mem_of_get? hget
  simp only [innkeeper, List.mem_cons, Prod.mk.injEq, List.not_mem_nil, or_false] at hmem
  rcases hmem with ⟨rfl, -⟩ | ⟨rfl, -⟩ | ⟨rfl, -⟩
  · exact absurd hlow (by decide)
  · exact absurd hlow (by decide)
  · exact absurd hhigh (by decide)

/-- Only one dialog is closed in between. -/
def dawdling : List (Request Recording) :=
  [.update 7, .pause, .closeDialog, .update 9, .select 0, .execute, .resume]

theorem evening_told_and_night_empty :
    (∃ talked : Engine Recording, (∀ left, (guest 0).steps (left + 1) = .ok talked) ∧
      talked.scene.world = innkeeper.shown [welcome] ∧
      serve dawdling talked = .ok (talked.telling [farewell] ⟨false, 1⟩) ∧
      (talked.telling [farewell] ⟨false, 1⟩).scene.world = innkeeper.shown [welcome, farewell] ∧
      (talked.telling [farewell] ⟨false, 1⟩).answer .closeDialog =
        succeed ((talked.withWorld (innkeeper.shown [welcome, farewell])).withChain
          (guest 0).chain.advance).execute) ∧
    ∃ passed : Engine Recording, (∀ left, (guest 1).steps (left + 1) = passed.steps left) ∧
      passed.chain = (guest 1).chain.advance ∧ passed.scene.world = innkeeper := by
  have hi : (⟨chat, 0⟩ : Position).instruction? = some (.call evening) ∧
      (⟨chat, 1⟩ : Position).instruction? = some (.call night) := by decide +kernel
  have hevening : ((guest 0).view evening).integer 0 = .ok 10 ∧
      ((guest 0).view evening).integerOr 1 10 = .ok 14 :=
    ⟨eq_ok_of_toOption (by decide +kernel), eq_ok_of_toOption (by decide +kernel)⟩
  have hnight : ((guest 1).view night).integer 0 = .ok 13 ∧
      ((guest 1).view night).integerOr 1 13 = .ok 14 :=
    ⟨eq_ok_of_toOption (by decide +kernel), eq_ok_of_toOption (by decide +kernel)⟩
  have hdrives : ∀ r ∈ dawdling, r.drives = true := by simp [dawdling, Request.drives]
  obtain ⟨-, htold⟩ := talk_tells_range (e := guest 0) rfl rfl hi.1 rfl rfl
    hevening.1 hevening.2 (by decide) range_of_evening
  obtain ⟨talked, hsteps, hchain, hworld, hrun⟩ := htold welcome [farewell] rfl
  obtain ⟨hserve, hshown, -, -, hclose⟩ := hrun dawdling hdrives (by decide)
  obtain ⟨hempty, -⟩ := talk_tells_range (e := guest 1) rfl rfl hi.2 rfl rfl
    hnight.1 hnight.2 (by decide) range_of_night
  obtain ⟨passed, hpasses, hadvanced, hsame, -⟩ := hempty rfl
  exact ⟨⟨talked, hsteps, hworld, hserve, hshown, hclose rfl⟩, passed, hpasses, hadvanced, hsame⟩

end Rehearsal

end Cutscene
