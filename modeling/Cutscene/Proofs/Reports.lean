import Cutscene.Proofs.Stride

/-! What a chain reports. Whatever an engine is asked, it adds to its diagnostics and never touches
those that are there, unless it is asked to hand them out. -/

namespace Cutscene

namespace Engine

variable {ω : Type}

/-- The diagnostics of one engine come first in those of another. -/
def Adds (e e' : Engine ω) : Prop := e.diagnostics.toList <+: e'.diagnostics.toList

variable {e e' e'' : Engine ω} {f : Fault}

theorem Adds.of_eq (h : e'.diagnostics = e.diagnostics) : e.Adds e' := by
  simp [Adds, h]

theorem Adds.trans (h : e.Adds e') (h' : e'.Adds e'') : e.Adds e'' := List.IsPrefix.trans h h'

theorem adds_report (e : Engine ω) (f : Fault) : e.Adds (e.report f) := by
  simp [Adds, report]

theorem adds_foldl_report (e : Engine ω) (faults : List Fault) :
    e.Adds (faults.foldl report e) := by
  rw [foldl_report]
  simp [Adds]

theorem adds_reportLines (e : Engine ω) : e.Adds e.reportLines := by
  rw [reportLines_eq]
  simp [Adds]

theorem adds_yield (e : Engine ω) (p : Position) (i : Instruction) : e.Adds (e.yield p i) := by
  unfold yield
  split
  · exact .of_eq rfl
  · exact adds_report e _

theorem adds_skipFaulty (e : Engine ω) (file : String) (call : Call) (f : Fault) :
    e.Adds (e.skipFaulty file call f) := adds_report e _

theorem adds_follow (e : Engine ω) (file : String) (call : Call) (course : Except Fault Course) :
    e.Adds (e.follow file call course) := by
  refine (adds_reportLines e).trans ?_
  cases course with
  | error f => exact adds_skipFaulty _ file call f
  | ok course =>
    cases course with
    | next => exact .of_eq rfl
    | moved => exact .of_eq rfl
    | entered => exact .of_eq (by simp [follow])
    | parked => exact .of_eq rfl
    | stalled => exact adds_skipFaulty _ file call _

variable [World ω]

theorem Acts.diagnostics {action : Action} {course : Except Fault Course}
    (h : e.Acts action e' course) : e'.diagnostics = e.diagnostics := by
  cases h with
  | _ => rfl

theorem adds_of_step {p : Position} {i : Instruction} (h : e.step p i = .ok e') : e.Adds e' := by
  cases i with
  | marker name literal line =>
    obtain ⟨-, rfl⟩ := step_marker_eq_ok.mp h
    exact .of_eq rfl
  | call call =>
    have hobserved : e.Adds (e.observe (.reached p.script.file p.line)) := .of_eq (by simp)
    refine hobserved.trans ?_
    cases dispatched_of_dispatch h with
    | unresolved unknown => exact adds_skipFaulty _ _ call _
    | refused resolves refuses => exact adds_follow _ _ call _
    | acted asks acts =>
      have hacted := Adds.of_eq acts.diagnostics
      exact hacted.trans (adds_follow _ _ call _)

end Engine

open Engine

variable {ω : Type} [World ω] {s t : Phase ω} {e e' : Engine ω} {r : Request ω} {o : Opening ω}

theorem Round.adds (h : Round s t) : s.engine.Adds t.engine := by
  cases h with
  | halt held => exact .of_eq rfl
  | leave free runs ended leaves => exact .of_eq rfl
  | finish free ended alone => exact .of_eq rfl
  | yield free stands next => exact adds_yield _ _ _
  | step free stands next ran => exact adds_of_step ran

theorem Rounds.adds (h : Rounds s t) : s.engine.Adds t.engine := by
  induction h with
  | refl => exact .of_eq rfl
  | tail _ round ih => exact ih.trans round.adds

namespace Engine

omit [World ω] in
theorem adds_starts (e : Engine ω) (script : Script) (owner : Option Owner) :
    e.Adds (e.starts script owner).phase.engine := by
  unfold starts
  split
  · exact adds_report e _
  · exact .of_eq (by simp [Phase.begun, Phase.engine]; rfl)

omit [World ω] in
theorem adds_found (e : Engine ω) (cache : Cache) : e.Adds (e.withCache cache).reportLines :=
  adds_reportLines (e.withCache cache)

theorem Opened.adds (h : e.Opened r o) (hkeeps : r ≠ .takeDiagnostics) :
    e.Adds o.phase.engine := by
  cases h with
  | run found => exact (adds_found e _).trans (adds_starts _ _ _)
  | runNothing missing inside => exact (adds_found e _).trans (adds_report _ _)
  | runNothingIdle missing outside => exact (adds_found e _).trans (adds_report _ _)
  | runContent parses => exact (adds_foldl_report e _).trans (adds_starts _ _ _)
  | takeDiagnostics => exact absurd rfl hkeeps
  | _ => exact .of_eq rfl

/-- A request loses nothing that was reported, and reports behind it. -/
theorem adds_of_answer {result : Except Fault Unit} (h : e.answer r = .ok (e', result))
    (hkeeps : r ≠ .takeDiagnostics) : e.Adds e' := by
  obtain ⟨o, hopen, -, hrounds⟩ := answer_eq_ok_iff.mp h
  exact ((opened_of_opening hopen).adds hkeeps).trans (Rounds.adds hrounds)

end Engine

end Cutscene
