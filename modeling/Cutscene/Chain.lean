import Cutscene.Dict
import Cutscene.Owner
import Cutscene.Script
import Cutscene.Wait

/-! The state of one chain of scripts: the script that runs and the line it stands at, the callers
parked below it, what the chain waits for, and the labels it has passed. -/

namespace Cutscene

/-- A line of a script. For a parked caller it is the line of the call. -/
structure Position where
  script : Script
  line : Nat
  deriving DecidableEq, Repr

/-- Every field is written on its own; which of their values go together is for the operations to
keep. Callers are innermost first. -/
structure Chain where
  script? : Option Script := none
  line : Nat := 0
  isRunning : Bool := false
  paused : Bool := false
  callers : List Position := []
  wait : Option Wait := none
  owner : Option Owner := none
  visits : Dict String UInt32 := []

inductive Status where
  | idle
  | running
  | paused
  | suspended
  deriving DecidableEq, Repr

namespace Position

def instruction? (p : Position) : Option Instruction := p.script.instructions[p.line]?

def isAtEnd (p : Position) : Bool := p.script.length ≤ p.line

def advanced (p : Position) : Position := { p with line := p.line + 1 }

end Position

namespace Chain

/-- Where the chain stands, if it has a script. -/
def position (c : Chain) : Option Position := c.script?.map fun script => ⟨script, c.line⟩

def file? (c : Chain) : Option String := c.script?.map Script.file

def depth (c : Chain) : Nat := c.callers.length

def instruction? (c : Chain) : Option Instruction := c.position.bind Position.instruction?

def isAtEnd (c : Chain) : Bool := (c.position.map Position.isAtEnd).getD true

def status (c : Chain) : Status :=
  if !c.isRunning then .idle
  else if c.paused then .paused
  else if c.wait.isSome then .suspended
  else .running

def advance (c : Chain) : Chain := { c with line := c.line + 1 }

/-- The chain with its current script at a position. -/
def standingAt (c : Chain) (p : Position) : Chain :=
  { c with script? := some p.script, line := p.line }

def visitKey (file label : String) : String := file ++ "#" ++ label

/-- The key of a label, given in normal form, in the current script. -/
def hereKey (c : Chain) (label : String) : String := visitKey (c.file?.getD "") label

def visitsOf (c : Chain) (key : String) : UInt32 := (c.visits.get? key).getD 0

/-- Whether a passage of a label can still be counted. -/
def canCount (c : Chain) (label : String) : Bool :=
  (c.visitsOf (c.hereKey label)).toNat + 1 < UInt32.size

/-- Counts a passage of a label, given in normal form, in the current script. -/
def countVisit (c : Chain) (label : String) : Chain :=
  { c with visits := c.visits.insert (c.hereKey label) (c.visitsOf (c.hereKey label) + 1) }

def visitCount (c : Chain) (file label : String) : UInt32 :=
  c.visitsOf (visitKey file (Label.normalize label))

/-- Starts a script on top of the one that runs, if one does. -/
def enter (c : Chain) (script : Script) : Chain :=
  { c with
    callers := match c.position with
      | some caller => caller :: c.callers
      | none => c.callers
    script? := some script
    line := 0
    wait := none
    isRunning := true }

/-- Goes back to the innermost caller, on the line after its call. -/
def leave? (c : Chain) : Option Chain :=
  match c.callers with
  | [] => none
  | caller :: callers => some { c.standingAt caller.advanced with callers }

theorem leave?_eq_some {c c' : Chain} : c.leave? = some c' ↔
    ∃ caller callers, c.callers = caller :: callers ∧
      { c.standingAt caller.advanced with callers } = c' := by
  unfold leave?
  cases c.callers with
  | nil => simp
  | cons caller callers =>
    simp only [Option.some.injEq, List.cons.injEq]
    constructor
    · rintro rfl
      exact ⟨caller, callers, ⟨rfl, rfl⟩, rfl⟩
    · rintro ⟨_, _, ⟨rfl, rfl⟩, rfl⟩
      rfl

/-- Ends the chain; the callers and the pause are left to whoever ended it. -/
def finish (c : Chain) : Chain :=
  { c with script? := none, line := 0, isRunning := false, wait := none, owner := none }

/-- Leaves the script that runs by its end, as a `Return` does. -/
def goBack (c : Chain) : Chain :=
  match c.leave? with
  | some c => c
  | none => { c with line := (c.script?.map Script.length).getD 0 }

/-- The first line left, at a position or behind a call of its callers, with the callers above. -/
def unwind? (p : Position) : List Position → Option (Position × List Position)
  | [] => if p.isAtEnd then none else some (p, [])
  | caller :: callers =>
    if p.isAtEnd then unwind? caller.advanced callers else some (p, caller :: callers)

/-- Leaves finished scripts, and ends the chain when no line is left. -/
def settle (c : Chain) : Chain :=
  match c.position with
  | none => c.finish
  | some p => match unwind? p c.callers with
    | some (p, callers) => { c.standingAt p with callers }
    | none => { c with callers := [] }.finish

section Fields

variable {c : Chain} {p : Position}

theorem position_eq_some : c.position = some p ↔ c.script? = some p.script ∧ c.line = p.line := by
  obtain ⟨script, line⟩ := p
  unfold position
  cases c.script? <;> simp

@[simp] theorem position_eq_none : c.position = none ↔ c.script? = none := by simp [position]

@[simp] theorem isSome_position : c.position.isSome = c.script?.isSome := by simp [position]

@[simp] theorem position_standingAt : (c.standingAt p).position = some p := rfl

theorem standingAt_self (h : c.position = some p) : c.standingAt p = c := by
  obtain ⟨hscript, hline⟩ := position_eq_some.mp h
  rw [standingAt, ← hscript, ← hline]

theorem withLine_eq (h : c.position = some p) (line : Nat) :
    { c with line } = c.standingAt ⟨p.script, line⟩ := by
  obtain ⟨hscript, -⟩ := position_eq_some.mp h
  rw [standingAt, ← hscript]

theorem advance_eq (h : c.position = some p) : c.advance = c.standingAt p.advanced := by
  obtain ⟨-, hline⟩ := position_eq_some.mp h
  rw [advance, hline, withLine_eq h]
  rfl

theorem callers_enter (h : c.position = some p) (script : Script) :
    (c.enter script).callers = p :: c.callers := by
  simp only [enter, h]

theorem callers_enter_first (h : c.position = none) (script : Script) :
    (c.enter script).callers = c.callers := by
  simp only [enter, h]

@[simp] theorem position_advance : c.advance.position = c.position.map Position.advanced := by
  simp [position, advance, Position.advanced, Function.comp_def]

end Fields

end Chain

end Cutscene
