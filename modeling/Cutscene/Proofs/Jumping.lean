import Cutscene.Proofs.Markers
import Cutscene.Proofs.Passing
import Cutscene.Proofs.References
import Cutscene.Proofs.Steering

/-! Jumps. A jump goes behind the first marker of its label and counts a passage, if it can still be
counted, or it is reported and the chain goes on. A branch that is taken jumps to its label as it is
written, and a `Goto` writes the variables in it out first. So the two part where the label refers to
a variable and one of the two names has a marker. -/

namespace Cutscene

namespace Call

variable (c : Call) (condition label : String)

/-- A branch to a label, which stands as second parameter or behind the condition. -/
def BranchesTo : Prop :=
  CommandTable.key c.name = "if" ∧
    (c.parameters = [condition, label] ∨ c.parameters = [condition] ∧ c.result = label)

def GoesTo : Prop := CommandTable.key c.name = "goto" ∧ c.parameters = [label]

instance : Decidable (c.BranchesTo condition label) :=
  inferInstanceAs (Decidable (_ ∧ (_ ∨ _ ∧ _)))

instance : Decidable (c.GoesTo label) := inferInstanceAs (Decidable (_ ∧ _))

end Call

namespace Text

theorem isBlankText_trim {s : String} (h : isBlankText s = false) :
    isBlankText (onChars trim s) = false := by
  obtain ⟨c, hc, hblank⟩ := List.all_eq_false.mp h
  have hkept : c ∈ trim s.toList := (mem_trim_iff (Bool.eq_false_iff.mpr hblank)).mpr hc
  exact List.all_eq_false.mpr ⟨c, by rwa [onChars, String.toList_ofList], hblank⟩

end Text

namespace Chain

theorem visitKey_inj {file name name' : String} :
    visitKey file name = visitKey file name' ↔ name = name' := by
  simp [visitKey]

theorem hereKey_inj {c : Chain} {name name' : String} :
    c.hereKey name = c.hereKey name' ↔ name = name' := visitKey_inj

theorem countVisit_visits_inj {c : Chain} {name name' : String} :
    (c.countVisit name).visits = (c.countVisit name').visits ↔ name = name' := by
  constructor
  · intro heq
    by_contra hne
    -- at the key of the first label one chain has counted on and the other has not
    have hcount := congrArg (Dict.get? · (c.hereKey name)) heq
    simp only [countVisit, Dict.get?_insert, hereKey_inj, if_true, if_neg (Ne.symm hne)] at hcount
    have hsame : c.visitsOf (c.hereKey name) + 1 = c.visitsOf (c.hereKey name) := by
      conv_rhs => rw [visitsOf, ← hcount, Option.getD_some]
    simp at hsame
  · rintro rfl
    rfl

end Chain

namespace Engine

variable {ω : Type} {e b g : Engine ω} {p : Position} {name name' : String}
  {r r' : Except (Crash ω) (Engine ω)}

/-- What a jump to a label in normal form comes to. -/
inductive Lands (e : Engine ω) (p : Position) (name : String) :
    Except (Crash ω) (Engine ω) → Prop where
  | behind {i : Nat} {e' : Engine ω} (marked : p.script.markerOf? name = some i)
      (counts : e.chain.canCount name = true)
      (moved : e'.chain = { e.chain.countVisit name with line := i + 1 })
      (silent : e'.diagnostics = e.reportLines.diagnostics) : Lands e p name (.ok e')
  | full {i : Nat} (marked : p.script.markerOf? name = some i)
      (full : e.chain.canCount name = false) :
      Lands e p name (.error ⟨.visits (e.chain.hereKey name), e.scene.world⟩)
  | nowhere {f : Fault} {e' : Engine ω} (missing : p.script.markerOf? name = none)
      (passed : e'.chain = e.chain.advance)
      (told : e'.diagnostics = e.reportLines.diagnostics.push f)
      (code : f.code = "ENGINE_LABEL_MISSING") : Lands e p name (.ok e')

theorem Lands.of_marked {i : Nat} (h : e.Lands p name r) (hi : p.script.markerOf? name = some i)
    (hcounts : e.chain.canCount name = true) :
    ∃ e', r = .ok e' ∧ e'.chain = { e.chain.countVisit name with line := i + 1 } ∧
      e'.diagnostics = e.reportLines.diagnostics := by
  cases h with
  | behind marked counts moved silent =>
    obtain rfl := Option.some.inj (marked.symm.trans hi)
    exact ⟨_, rfl, moved, silent⟩
  | full marked full => cases hcounts.symm.trans full
  | nowhere missing passed told code => cases hi.symm.trans missing

theorem Lands.of_missing (h : e.Lands p name r) (hnone : p.script.markerOf? name = none) :
    ∃ e', r = .ok e' ∧ e'.chain = e.chain.advance ∧
      e'.diagnostics.map Fault.code =
        (e.reportLines.diagnostics.map Fault.code).push "ENGINE_LABEL_MISSING" := by
  cases h with
  | behind marked counts moved silent => cases hnone.symm.trans marked
  | full marked full => cases hnone.symm.trans marked
  | nowhere missing passed told code =>
    exact ⟨_, rfl, passed, by rw [told, Array.map_push, code]⟩

theorem Lands.of_full {i : Nat} (h : e.Lands p name r) (hi : p.script.markerOf? name = some i)
    (hfull : e.chain.canCount name = false) :
    r = .error ⟨.visits (e.chain.hereKey name), e.scene.world⟩ := by
  cases h with
  | behind marked counts moved silent => cases counts.symm.trans hfull
  | full marked full => rfl
  | nowhere missing passed told code => cases hi.symm.trans missing

/-- A jump breaks down only where its label has been passed as often as can be counted. -/
theorem Lands.ok_iff (h : e.Lands p name r) :
    (∃ e', r = .ok e') ↔ p.script.markerOf? name = none ∨ e.chain.canCount name = true := by
  cases h with
  | behind marked counts moved silent => simp [counts]
  | full marked full => simp [marked, full]
  | nowhere missing passed told code => simp [missing]

/-- The chains are the same, and faults of the same codes were told. -/
def Alike (b g : Engine ω) : Prop :=
  b.chain = g.chain ∧ b.diagnostics.map Fault.code = g.diagnostics.map Fault.code

theorem codes_ne_of_push {told told' : Array Fault} {before : Array Fault} {f : Fault}
    (h : told = before) (h' : told' = before.push f) :
    told.map Fault.code ≠ told'.map Fault.code := by
  intro heq
  have hsize := congrArg Array.size heq
  simp [h, h'] at hsize

theorem Lands.alike_self (h : e.Lands p name r) (h' : e.Lands p name r') : Agree Alike r r' := by
  cases h with
  | behind marked counts moved silent =>
    obtain ⟨g, rfl, moved', silent'⟩ := h'.of_marked marked counts
    exact .ok ⟨by rw [moved, moved'], by rw [silent, silent']⟩
  | full marked full =>
    cases h' with
    | behind marked' counts' moved' silent' => cases counts'.symm.trans full
    | full marked' full' => exact .error _
    | nowhere missing' passed' told' code' => cases marked.symm.trans missing'
  | nowhere missing passed told code =>
    obtain ⟨g, rfl, passed', told'⟩ := h'.of_missing missing
    exact .ok ⟨by rw [passed, passed'], by rw [told', told, Array.map_push, code]⟩

/-- Two jumps come out alike if they are to the same label, or if both labels are missing. -/
theorem Lands.alike_iff (hb : e.Lands p name r) (hg : e.Lands p name' r') :
    Agree Alike r r' ↔
      name = name' ∨ p.script.markerOf? name = none ∧ p.script.markerOf? name' = none := by
  constructor
  · intro halike
    cases hb with
    | behind marked counts moved silent =>
      cases hg with
      | behind marked' counts' moved' silent' =>
        have hchain := (Agree.ok_iff.mp halike).1
        rw [moved, moved'] at hchain
        have hvisits := congrArg Chain.visits hchain
        exact Or.inl (Chain.countVisit_visits_inj (c := e.chain).mp hvisits)
      | full marked' full' => cases halike
      | nowhere missing' passed' told' code' =>
        -- the missing label is told, and the other one is not
        exact absurd (Agree.ok_iff.mp halike).2 (codes_ne_of_push silent told')
    | full marked full =>
      cases hg with
      | full marked' full' =>
        have hkeys := Breakdown.visits.inj (Crash.mk.inj (Agree.error_iff.mp halike)).1
        exact Or.inl (Chain.hereKey_inj.mp hkeys)
      | _ => cases halike
    | nowhere missing passed told code =>
      cases hg with
      | behind marked' counts' moved' silent' =>
        exact absurd (Agree.ok_iff.mp halike).2.symm (codes_ne_of_push silent' told)
      | full marked' full' => cases halike
      | nowhere missing' passed' told' code' => exact Or.inr ⟨missing, missing'⟩
  · rintro (rfl | ⟨hnone, hnone'⟩)
    · exact hb.alike_self hg
    · obtain ⟨b, rfl, passed, told⟩ := hb.of_missing hnone
      obtain ⟨g, rfl, passed', told'⟩ := hg.of_missing hnone'
      exact .ok ⟨passed.trans passed'.symm, told.trans told'.symm⟩

variable [World ω] {c : Call} {label condition : String}

omit [World ω] in
theorem lands_jump (hp : e.chain.position = some p) (c : Call) (label : String) :
    e.Lands p (Label.normalize label)
      (e.jump label >>= fun acted => .ok (acted.1.follow p.script.file c acted.2)) := by
  cases hmarker : p.script.markerOf? (Label.normalize label) with
  | some i =>
    rw [jump_of_marked hp hmarker]
    cases hcounts : e.chain.canCount (Label.normalize label) with
    | true =>
      rw [pass_of_canCount hcounts]
      refine .behind hmarker hcounts (by simp [follow]) ?_
      simp only [follow, reportLines_eq]
      rfl
    | false =>
      rw [pass_eq_error.mpr ⟨hcounts, rfl⟩]
      exact .full hmarker hcounts
  | none =>
    have hjump : e.jump label =
        .ok (e, .error { cause := .labelMissing (Label.normalize label) p.script.file }) := by
      simp only [jump, (Chain.position_eq_some.mp hp).1, hmarker]
    rw [hjump]
    exact .nowhere hmarker (by simp [follow, skipFaulty, advance]) rfl rfl

omit [World ω] in
theorem Lands.of_observe {event : Event} (h : (e.observe event).Lands p name r) :
    e.Lands p name r := by
  have hchain : (e.observe event).chain = e.chain := by simp
  have hlines : (e.observe event).reportLines.diagnostics = e.reportLines.diagnostics := by
    simp [reportLines_eq]
  cases h with
  | behind marked counts moved silent =>
    exact .behind marked (hchain ▸ counts) (hchain ▸ moved) (silent.trans hlines)
  | full marked full =>
    rw [hchain] at full
    rw [hchain, observe_world]
    exact .full marked full
  | nowhere missing passed told code =>
    exact .nowhere missing (hchain ▸ passed) (hlines ▸ told) code

/-- A call that asks for a jump lands in one way or the other. -/
theorem step_jump (hp : e.chain.position = some p) (hasks : e.Asks c (.jump label)) :
    e.Lands p (Label.normalize label) (e.step p (.call c)) := by
  have hobserved : (e.arrived p).chain.position = some p := by simpa [arrived] using hp
  have hstill : (e.arrived p).Asks c (.jump label) := asks_observe.mpr hasks
  have hstep : e.step p (.call c) = (e.arrived p).jump label >>= fun acted =>
      .ok (acted.1.follow p.script.file c acted.2) := dispatch_of_asks hstill
  rw [hstep]
  exact (lands_jump hobserved c label).of_observe

/-- A branch whose condition holds jumps to its label as it is written. -/
theorem asks_branch (hstandard : e.table = .standard) (hc : c.BranchesTo condition label)
    (hlabel : Text.isBlankText label = false)
    (hholds : Condition.evaluate (World.getVariable e.scene.world) condition = .ok true) :
    ∃ target, e.Asks c (.jump target) ∧ Label.normalize target = Label.normalize label := by
  obtain ⟨hname, hwritten⟩ := hc
  have hlength : c.parameters.length = 1 ∨ c.parameters.length = 2 := by
    rcases hwritten with htwo | ⟨hone, -⟩
    · exact Or.inr (congrArg List.length htwo)
    · exact Or.inl (congrArg List.length hone)
  have hresolve := CommandTable.standard_branch hname hlength
  rw [← hstandard] at hresolve
  rcases hwritten with htwo | ⟨hone, hresult⟩
  · refine ⟨label, ⟨_, hresolve, ?_⟩, rfl⟩
    simp [Command.branch, View.branchTarget, View.condition, View.has, View.raw, view, htwo, hlabel,
      hholds]
    rfl
  · refine ⟨Text.onChars Text.trim label, ⟨_, hresolve, ?_⟩, Label.normalize_trim label⟩
    have hblank := Text.isBlankText_trim hlabel
    simp [Command.branch, View.branchTarget, View.condition, View.has, View.raw, View.result, view,
      hone, hresult, hblank, hholds]
    rfl

/-- A `Goto` jumps to its label with the variables written out. -/
theorem asks_goto (hstandard : e.table = .standard) (hc : c.GoesTo label) :
    e.Asks c (.jump (Variable.substitute (World.getVariable e.scene.world) label)) := by
  obtain ⟨hname, hparameters⟩ := hc
  have hresolve := CommandTable.standard_goto hname (congrArg List.length hparameters)
  rw [← hstandard] at hresolve
  refine ⟨_, hresolve, ?_⟩
  simp [Command.goto, View.text, View.raw, view, hparameters]

end Engine

open Engine

variable {ω : Type} [World ω] {e : Engine ω} {p : Position} {branch goto : Call}
  {condition label : String}

/-- A branch that is taken leaves the chain, and tells, or breaks down, as a `Goto` to its label does
exactly if the label refers to no variable, or if neither the label as it is written nor the one that
the variables make of it has a marker. Each of the two breaks down only at a label that has been
passed as often as can be counted. -/
theorem branch_jumps_like_goto (hstandard : e.table = .standard) (hp : e.chain.position = some p)
    (hbranch : branch.BranchesTo condition label) (hgoto : goto.GoesTo label)
    (hlabel : Text.isBlankText label = false)
    (hholds : Condition.evaluate (World.getVariable e.scene.world) condition = .ok true) :
    let written := Variable.substitute (World.getVariable e.scene.world) label
    ((∃ b, e.step p (.call branch) = .ok b) ↔
      p.script.labelIndex? label = none ∨ e.chain.canCount (Label.normalize label) = true) ∧
    ((∃ g, e.step p (.call goto) = .ok g) ↔
      p.script.labelIndex? written = none ∨ e.chain.canCount (Label.normalize written) = true) ∧
    (Agree Alike (e.step p (.call branch)) (e.step p (.call goto)) ↔
      Variable.references label.toList = 0 ∨
        p.script.labelIndex? label = none ∧ p.script.labelIndex? written = none) := by
  intro written
  obtain ⟨target, hbranches, htarget⟩ := asks_branch hstandard hbranch hlabel hholds
  have hlands := step_jump hp hbranches
  have hlands' := step_jump hp (asks_goto hstandard hgoto)
  rw [htarget] at hlands
  refine ⟨hlands.ok_iff, hlands'.ok_iff, ?_⟩
  rw [hlands.alike_iff hlands', ← Label.normalize_substitute_iff, eq_comm]
  rfl

namespace Rehearsal

/-- A branch to a label that is spelt with a variable, and the marker that is meant. -/
def forkSource : String := "If($x == 1, \"@L$x\");\nReturn;\n@L1:"

def fork : Script := (Script.parse "fork" forkSource).script

def forkScene : Scene Recording := { scene with world := { vars := [("x", 1)] } }

/-- A new chain at the branch. -/
def atFork : Phase Recording := ((fresh .standard {} forkScene).starts fork none).phase

def forked : Call := ⟨"If", ["$x == 1", "@L$x"], "", "If($x == 1, \"@L$x\");", 1⟩

def direct : Call := ⟨"Goto", ["@L$x"], "", "Goto(\"@L$x\");", 1⟩

theorem forked_holds : Condition.evaluate (World.getVariable atFork.engine.scene.world) "$x == 1" =
    .ok true := by
  rfl

theorem reachable_atFork : Reachable .standard {} atFork := by
  refine ⟨forkScene, rfl, .single ⟨some (.runContent "fork" forkSource none), ?_⟩⟩
  have hfile : ScriptPath.normalize "fork" = "fork" := by decide +kernel
  have hfaults : (Script.parse "fork" forkSource).faults = [] :=
    List.isEmpty_iff.mp (by decide +kernel)
  refine .request ?_
  simp only [opening, hfile, hfaults]
  rfl

theorem branch_jumps_at_fork :
    (atFork.engine.table = .standard ∧ atFork.engine.chain.position = some ⟨fork, 0⟩ ∧
      forked.BranchesTo "$x == 1" "@L$x" ∧ direct.GoesTo "@L$x" ∧
      Text.isBlankText "@L$x" = false ∧
      Condition.evaluate (World.getVariable atFork.engine.scene.world) "$x == 1" = .ok true) ∧
    ((∃ b, atFork.engine.step ⟨fork, 0⟩ (.call forked) = .ok b) ∧
      (∃ g, atFork.engine.step ⟨fork, 0⟩ (.call direct) = .ok g) ∧
      (Agree Alike (atFork.engine.step ⟨fork, 0⟩ (.call forked))
          (atFork.engine.step ⟨fork, 0⟩ (.call direct)) ↔
        Variable.references "@L$x".toList = 0 ∨
          fork.labelIndex? "@L$x" = none ∧ fork.labelIndex? (Variable.substitute
            (World.getVariable atFork.engine.scene.world) "@L$x") = none)) := by
  have hposition : atFork.engine.chain.position = some ⟨fork, 0⟩ := rfl
  have hbranch : forked.BranchesTo "$x == 1" "@L$x" := by decide
  have hgoto : direct.GoesTo "@L$x" := by decide
  have hlabel : Text.isBlankText "@L$x" = false := by decide
  have hstandard := reachable_atFork.frame.1
  obtain ⟨hbranched, hwent, halike⟩ :=
    branch_jumps_like_goto hstandard hposition hbranch hgoto hlabel forked_holds
  exact ⟨⟨hstandard, hposition, hbranch, hgoto, hlabel, forked_holds⟩,
    hbranched.mpr (Or.inr rfl), hwent.mpr (Or.inr rfl), halike⟩

/-- The branch misses its label and goes on; the `Goto` gets there. -/
theorem branch_misses_fork :
    Reachable .standard {} atFork ∧ atFork.engine.isHeld = false ∧
    atFork.engine.chain.position = some ⟨fork, 0⟩ ∧
    (⟨fork, 0⟩ : Position).instruction? = some (.call forked) ∧
    forked.BranchesTo "$x == 1" "@L$x" ∧ direct.GoesTo "@L$x" ∧
    Condition.evaluate (World.getVariable atFork.engine.scene.world) "$x == 1" = .ok true ∧
    ∃ b g, atFork.engine.step ⟨fork, 0⟩ (.call forked) = .ok b ∧
      atFork.engine.step ⟨fork, 0⟩ (.call direct) = .ok g ∧
      b.chain.line = 1 ∧ b.diagnostics.map Fault.code = #["ENGINE_LABEL_MISSING"] ∧
      g.chain.line = 3 ∧ g.diagnostics.map Fault.code = #[] := by
  have hposition : atFork.engine.chain.position = some ⟨fork, 0⟩ := rfl
  have hbranch : forked.BranchesTo "$x == 1" "@L$x" := by decide
  have hgoto : direct.GoesTo "@L$x" := by decide
  have hmissing : fork.markerOf? (Label.normalize "@L$x") = none := by decide +kernel
  have hmarked : fork.markerOf? (Label.normalize
      (Variable.substitute (World.getVariable atFork.engine.scene.world) "@L$x")) = some 2 := by
    decide +kernel
  have hstandard := reachable_atFork.frame.1
  obtain ⟨target, hbranches, htarget⟩ := asks_branch hstandard hbranch (by decide) forked_holds
  have hlands := step_jump hposition hbranches
  have hlands' := step_jump hposition (asks_goto hstandard hgoto)
  rw [htarget] at hlands
  obtain ⟨b, hb, hpassed, htold⟩ := hlands.of_missing hmissing
  obtain ⟨g, hg, hmoved, hsilent⟩ := hlands'.of_marked hmarked rfl
  refine ⟨reachable_atFork, rfl, hposition, by decide +kernel, hbranch, hgoto, forked_holds,
    b, g, hb, hg, ?_⟩
  have hbefore : atFork.engine.reportLines.diagnostics = #[] := rfl
  rw [hpassed, htold, hmoved, hsilent, hbefore, Array.map_empty]
  exact ⟨rfl, rfl, rfl, rfl⟩

end Rehearsal

end Cutscene
