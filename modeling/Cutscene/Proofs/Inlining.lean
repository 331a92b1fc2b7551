import Cutscene.Proofs.Finding
import Cutscene.Proofs.References
import Cutscene.Proofs.Round
import Cutscene.Proofs.Steering
import Mathlib.Data.List.Forall2

/-! Inlined calls. In place of a line that calls another script stand the lines of that script.
Every place of a chain that runs the calling script then has its counterpart: the lines behind the
call move, and the lines of the script that is called belong to the script that calls it. -/

namespace Cutscene

/-- Whether an instruction is no label and takes the chain to the next line at most. -/
def Instruction.isSteady : Instruction → Bool
  | .marker .. => false
  | .call c => !c.maySteer

/-- A script that calls another one at one of its lines, by a path that names it wherever the call
stands. The script that is called has no labels and steers nothing. -/
structure Inlining where
  file : String
  before : List Instruction
  call : Call
  behind : List Instruction
  inner : Script
  target : String
  runs : CommandTable.key call.name = "runscript"
  names : call.parameters = [target]
  constant : ∀ value, Variable.substitute value target = target
  placed : (ScriptPath.normalize target).toList.contains '/' = true
  steady : ∀ i ∈ inner.instructions, i.isSteady = true

namespace Inlining

variable (x : Inlining)

/-- The script that calls. -/
def outer : Script := ⟨x.file, x.before ++ .call x.call :: x.behind⟩

/-- The script that has the lines of the other one in place of the call. -/
def inlined : Script := ⟨x.file, x.before ++ x.inner.instructions ++ x.behind⟩

def line : Nat := x.before.length

/-- Where a line comes to stand. -/
def moved (l : Nat) : Nat := if l ≤ x.line then l else l + x.inner.length - 1

variable {x} {l j : Nat}

theorem moved_of_le (h : l ≤ x.line) : x.moved l = l := if_pos h

theorem moved_of_lt (h : x.line < l) : x.moved l = l + x.inner.length - 1 :=
  if_neg (Nat.not_le.mpr h)

theorem moved_succ (h : l ≠ x.line) : x.moved (l + 1) = x.moved l + 1 := by
  by_cases hle : l + 1 ≤ x.line
  · rw [moved_of_le hle, moved_of_le (by omega)]
  · rw [moved_of_lt (by omega), moved_of_lt (by omega)]
    omega

/-- The line behind the call comes to stand behind the lines of the script that is called. -/
theorem moved_behind : x.moved (x.line + 1) = x.line + x.inner.length := by
  rw [moved_of_lt (Nat.lt_succ_self _)]
  omega

theorem outer_at_line : x.outer.instructions[x.line]? = some (.call x.call) := by
  simp [outer, line]

theorem inlined_at_moved (h : l ≠ x.line) :
    x.inlined.instructions[x.moved l]? = x.outer.instructions[l]? := by
  have hlength : x.line = x.before.length := rfl
  have hinner : x.inner.length = x.inner.instructions.length := rfl
  rw [inlined, outer, List.append_assoc]
  by_cases hlt : l < x.line
  · rw [moved_of_le (Nat.le_of_lt hlt), List.getElem?_append_left (by omega),
      List.getElem?_append_left (by omega)]
  · obtain ⟨m, rfl⟩ : ∃ m, l = x.line + (m + 1) := ⟨l - x.line - 1, by omega⟩
    have hbehind : x.moved (x.line + (m + 1)) = x.line + (x.inner.length + m) := by
      rw [moved_of_lt (by omega)]
      omega
    rw [hbehind, hlength, hinner, List.getElem?_append_right (by omega),
      List.getElem?_append_right (by omega), List.getElem?_append_right (by omega)]
    simp

theorem inlined_at_inner (h : j < x.inner.length) :
    x.inlined.instructions[x.line + j]? = x.inner.instructions[j]? := by
  have hlength : x.line = x.before.length := rfl
  have hinner : x.inner.length = x.inner.instructions.length := rfl
  rw [inlined, List.append_assoc, List.getElem?_append_right (by omega),
    List.getElem?_append_left (by omega)]
  congr 1
  omega

theorem length_inlined : x.inlined.length = x.moved x.outer.length := by
  have houter : x.outer.length = x.line + (x.behind.length + 1) := by
    simp [outer, Script.length, line]
  rw [moved_of_lt (by omega), houter]
  simp only [inlined, Script.length, List.length_append, line]
  omega

theorem markerOf?_inlined (label : String) :
    x.inlined.markerOf? label = (x.outer.markerOf? label).map x.moved := by
  have hinner : x.inner.instructions.findIdx? (·.marks label) = none := by
    rw [List.findIdx?_eq_none_iff]
    intro i hi
    cases i with
    | marker name literal line => cases x.steady _ hi
    | call c => rfl
  have hcall : (Instruction.call x.call).marks label = false := rfl
  have hlength : x.line = x.before.length := rfl
  simp only [Script.markerOf?, inlined, outer, List.findIdx?_append, List.findIdx?_cons, hinner,
    hcall]
  cases hbefore : x.before.findIdx? (·.marks label) with
  | some m =>
    have hm : m < x.before.length := (List.findIdx?_eq_some_iff_findIdx_eq.mp hbefore).1
    simp [moved_of_le (x := x) (l := m) (by omega)]
  | none =>
    cases x.behind.findIdx? (·.marks label) with
    | none => simp
    | some m =>
      have hmoved : x.moved (m + 1 + x.before.length) =
          m + 1 + x.before.length + x.inner.length - 1 := moved_of_lt (by omega)
      simp only [Script.length] at hmoved
      simp [hmoved]
      omega

variable (x)

/-- The same position, or a line of the script and where it comes to stand. A line that is being run
or that has called is not the line of the inlined call. -/
inductive Beside (busy : Bool) : Position → Position → Prop where
  | same (p : Position) : Beside busy p p
  | moved (l : Nat) (other : busy = true → l ≠ x.line) :
      Beside busy ⟨x.outer, l⟩ ⟨x.inlined, x.moved l⟩

/-- The places of two chains, each a position with the callers below it. While the first chain is in
the script that is called, the second one is in the lines that stand for it. -/
inductive Places (busy : Bool) :
    Option Position → List Position → Option Position → List Position → Prop where
  | idle {callers callers' : List Position} (parked : List.Forall₂ (x.Beside true) callers callers') :
      Places busy none callers none callers'
  | beside {p p' : Position} {callers callers' : List Position} (stands : x.Beside busy p p')
      (parked : List.Forall₂ (x.Beside true) callers callers') :
      Places busy (some p) callers (some p') callers'
  | inside {j : Nat} {callers callers' : List Position} (within : j ≤ x.inner.length)
      (before : busy = true → j < x.inner.length)
      (parked : List.Forall₂ (x.Beside true) callers callers') :
      Places busy (some ⟨x.inner, j⟩) (⟨x.outer, x.line⟩ :: callers)
        (some ⟨x.inlined, x.line + j⟩) callers'

variable {x} {busy : Bool} {p p' : Position} {i : Instruction}
  {position position' : Option Position} {callers callers' : List Position}

theorem Beside.of_busy (h : x.Beside true p p') : x.Beside busy p p' := by
  cases h with
  | same p => exact .same p
  | moved l other => exact .moved l fun _ => other rfl

theorem Beside.advanced (h : x.Beside true p p') : x.Beside false p.advanced p'.advanced := by
  cases h with
  | same p => exact .same _
  | moved l other =>
    have hnext : (⟨x.inlined, x.moved l⟩ : Position).advanced = ⟨x.inlined, x.moved (l + 1)⟩ := by
      rw [moved_succ (other rfl)]
      rfl
    rw [hnext]
    exact .moved (l + 1) (fun h => by cases h)

theorem Beside.file_eq (h : x.Beside busy p p') : p'.script.file = p.script.file := by
  cases h with
  | same p => rfl
  | moved l other => rfl

/-- The line of the call apart, both positions have the same instruction or none. -/
theorem Beside.instruction?_eq (h : x.Beside true p p') : p'.instruction? = p.instruction? := by
  cases h with
  | same p => rfl
  | moved l other => exact inlined_at_moved (other rfl)

/-- A line is the line of the call, or it is like any other. -/
theorem Beside.cases_call (h : x.Beside busy p p') :
    x.Beside true p p' ∨ p = ⟨x.outer, x.line⟩ ∧ p' = ⟨x.inlined, x.line⟩ := by
  cases h with
  | same p => exact Or.inl (.same p)
  | moved l other =>
    by_cases hl : l = x.line
    · subst hl
      exact Or.inr ⟨rfl, by rw [moved_of_le (Nat.le_refl _)]⟩
    · exact Or.inl (.moved l fun _ => hl)

theorem Beside.end (h : x.Beside busy p p') :
    x.Beside false ⟨p.script, p.script.length⟩ ⟨p'.script, p'.script.length⟩ := by
  cases h with
  | same p => exact .same _
  | moved l other =>
    rw [length_inlined]
    exact .moved _ fun h => by cases h

/-- A jump to a label finds its marker in both scripts or in none. -/
theorem Beside.marker (h : x.Beside busy p p') (label : String) :
    p.script.markerOf? label = none ∧ p'.script.markerOf? label = none ∨
      ∃ m m', p.script.markerOf? label = some m ∧ p'.script.markerOf? label = some m' ∧
        x.Beside false ⟨p.script, m + 1⟩ ⟨p'.script, m' + 1⟩ := by
  cases h with
  | same p =>
    cases p.script.markerOf? label with
    | none => exact Or.inl ⟨rfl, rfl⟩
    | some m => exact Or.inr ⟨m, m, rfl, rfl, .same _⟩
  | moved l other =>
    simp only [markerOf?_inlined]
    cases hm : x.outer.markerOf? label with
    | none => exact Or.inl ⟨rfl, rfl⟩
    | some m =>
      have hne : m ≠ x.line := by
        rintro rfl
        obtain ⟨hlt, hmarks, -⟩ := List.findIdx?_eq_some_iff_getElem.mp hm
        have hcall := List.getElem?_eq_getElem hlt
        rw [outer_at_line] at hcall
        rw [← Option.some.inj hcall] at hmarks
        cases hmarks
      refine Or.inr ⟨m, x.moved m, rfl, rfl, ?_⟩
      rw [← moved_succ hne]
      exact .moved _ fun h => by cases h

namespace Places

theorem of_busy (h : x.Places true position callers position' callers') :
    x.Places busy position callers position' callers' := by
  cases h with
  | idle parked => exact .idle parked
  | beside stands parked => exact .beside stands.of_busy parked
  | inside within before parked => exact .inside within (fun _ => before rfl) parked

theorem advance (h : x.Places true position callers position' callers') :
    x.Places false (position.map Position.advanced) callers
      (position'.map Position.advanced) callers' := by
  cases h with
  | idle parked => exact .idle parked
  | beside stands parked => exact .beside stands.advanced parked
  | inside within before parked => exact .inside (before rfl) (fun h => by cases h) parked

/-- Where the first chain stands at an instruction, it is the inlined call, or the second chain
stands at the same instruction. That may steer where both chains are in corresponding scripts. -/
theorem cases_instruction (h : x.Places busy (some p) callers position' callers')
    (hi : p.instruction? = some i) :
    (p = ⟨x.outer, x.line⟩ ∧ position' = some ⟨x.inlined, x.line⟩ ∧
        List.Forall₂ (x.Beside true) callers callers') ∨
      ∃ p', position' = some p' ∧ p'.instruction? = some i ∧
        x.Places true (some p) callers (some p') callers' ∧
        (i.isSteady = true ∨
          x.Beside true p p' ∧ List.Forall₂ (x.Beside true) callers callers') := by
  cases h with
  | beside stands parked =>
    rcases stands.cases_call with hother | ⟨rfl, rfl⟩
    · exact Or.inr ⟨_, rfl, hother.instruction?_eq.trans hi, .beside hother parked,
        Or.inr ⟨hother, parked⟩⟩
    · exact Or.inl ⟨rfl, rfl, parked⟩
  | @inside j callers callers' within before parked =>
    have hj : j < x.inner.length := (List.getElem?_eq_some_iff.mp hi).1
    have hsteady := x.steady i (List.mem_of_getElem? hi)
    exact Or.inr ⟨_, rfl, (inlined_at_inner hj).trans hi, .inside within (fun _ => hj) parked,
      Or.inl hsteady⟩

/-- Where the first chain has no line left in its script, it goes back behind the inlined call, or
the second chain has no line left either. -/
theorem cases_end (h : x.Places busy (some p) callers position' callers')
    (hend : p.instruction? = none) :
    (∃ rest, callers = ⟨x.outer, x.line⟩ :: rest ∧
        x.Places false (some ⟨x.outer, x.line + 1⟩) rest position' callers') ∨
      ∃ p', position' = some p' ∧ p'.instruction? = none ∧
        List.Forall₂ (x.Beside true) callers callers' := by
  cases h with
  | beside stands parked =>
    rcases stands.cases_call with hother | ⟨rfl, rfl⟩
    · exact Or.inr ⟨_, rfl, hother.instruction?_eq.trans hend, parked⟩
    · rw [Position.instruction?, outer_at_line] at hend
      cases hend
  | @inside j callers callers' within before parked =>
    have hj : j = x.inner.length := Nat.le_antisymm within (List.getElem?_eq_none_iff.mp hend)
    have hbehind : (⟨x.inlined, x.line + j⟩ : Position) = ⟨x.inlined, x.moved (x.line + 1)⟩ := by
      rw [moved_behind, hj]
    refine Or.inl ⟨callers, rfl, ?_⟩
    rw [hbehind]
    exact .beside (.moved _ fun h => by cases h) parked

end Places

end Inlining

end Cutscene
