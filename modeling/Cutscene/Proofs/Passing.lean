import Cutscene.Proofs.Duration

/-! Passages of labels. A chain passes a label when it runs over one of its markers or takes a jump
to it; the next round either counts the passage or breaks down under it. -/

namespace Cutscene

/-- A label, in normal form, that was passed in a file. -/
structure Passage where
  file : String
  label : String
  deriving DecidableEq, Repr

def Passage.key (x : Passage) : String := Chain.visitKey x.file x.label

namespace Chain

variable {c : Chain} {p : Position}

theorem hereKey_of_position (hp : c.position = some p) (label : String) :
    c.hereKey label = (⟨p.script.file, label⟩ : Passage).key := by
  rw [hereKey, file?, (position_eq_some.mp hp).1]
  rfl

theorem canCount_eq_false_iff {label : String} :
    c.canCount label = false ↔ (c.visitsOf (c.hereKey label)).toNat + 1 = UInt32.size := by
  have hlt := (c.visitsOf (c.hereKey label)).toNat_lt
  simp only [canCount, decide_eq_false_iff_not, UInt32.size] at hlt ⊢
  omega

end Chain

namespace Engine

variable {ω : Type} [World ω] {e : Engine ω} {p : Position} {c : Call} {action : Action}

/-- What the command of a call asks for, as far as it is known and takes its parameters. -/
def asked? (e : Engine ω) (c : Call) : Option Action :=
  match e.table.resolve c with
  | .error _ => none
  | .ok command => (command.handler (e.view c)).toOption

theorem asked?_eq_some_iff : e.asked? c = some action ↔ e.Asks c action := by
  unfold asked? Asks
  cases e.table.resolve c with
  | error cause => simp
  | ok command =>
    cases hhandler : command.handler (e.view c) with
    | error f => simp [hhandler, Except.toOption]
    | ok asked => simp [hhandler, Except.toOption]

/-- The label that an instruction passes: a marker its own one, and a jump one that is marked. -/
def passes? (e : Engine ω) (p : Position) : Instruction → Option Passage
  | .marker name _ _ => some ⟨p.script.file, name⟩
  | .call c => match e.asked? c with
    | some (.jump label) =>
      (p.script.labelIndex? label).map fun _ => ⟨p.script.file, Label.normalize label⟩
    | _ => none

theorem passes?_of_jump {label : String} (hasks : e.Asks c (.jump label)) :
    e.passes? p (.call c) =
      (p.script.labelIndex? label).map fun _ => ⟨p.script.file, Label.normalize label⟩ := by
  simp only [passes?, asked?_eq_some_iff.mpr hasks]

theorem passes?_of_other (hother : ∀ label, ¬e.Asks c (.jump label)) :
    e.passes? p (.call c) = none := by
  cases hasked : e.asked? c with
  | none => simp only [passes?, hasked]
  | some action =>
    cases action with
    | jump label => exact absurd (asked?_eq_some_iff.mp hasked) (hother label)
    | _ => simp only [passes?, hasked]

end Engine

open Engine

variable {ω : Type} [World ω]

/-- The label that the next round passes. -/
def Phase.passes? : Phase ω → Option Passage
  | .running (_ + 1) e =>
    if e.isHeld then none
    else e.chain.position.bind fun p => p.instruction?.bind fun i => e.passes? p i
  | _ => none

/-- The next round passes a label that has been passed as often as can be counted. -/
def Phase.Overcounts (s : Phase ω) : Prop :=
  ∃ x, s.passes? = some x ∧ (s.chain.visitsOf x.key).toNat + 1 = UInt32.size

theorem passes?_of_held {left : Nat} {e : Engine ω} (held : e.isHeld = true) :
    (Phase.running left e).passes? = none := by
  cases left with
  | zero => rfl
  | succ left => simp only [Phase.passes?, held, if_true]

theorem passes?_of_end {left : Nat} {e : Engine ω} (ended : e.chain.isAtEnd = true) :
    (Phase.running left e).passes? = none := by
  cases left with
  | zero => rfl
  | succ left =>
    cases hp : e.chain.position with
    | none => simp [Phase.passes?, hp]
    | some p =>
      have hend : p.isAtEnd = true := by simpa [Chain.isAtEnd, hp] using ended
      simp [Phase.passes?, hp, Position.isAtEnd_iff.mp hend]

theorem passes?_of_free {left : Nat} {e : Engine ω} {p : Position} {i : Instruction}
    (free : e.isHeld = false) (stands : e.chain.position = some p)
    (next : p.instruction? = some i) :
    (Phase.running (left + 1) e).passes? = e.passes? p i := by
  simp [Phase.passes?, free, stands, next]

/-- Whatever the next round runs or passes, the chain stands at an instruction and may run it. -/
theorem inside_of_next {s : Phase ω} (h : s.next? ≠ none ∨ s.passes? ≠ none) :
    ∃ left e p i, s = .running (left + 1) e ∧ e.isHeld = false ∧ e.chain.position = some p ∧
      p.instruction? = some i := by
  cases s with
  | resting e => simp [Phase.next?, Phase.passes?] at h
  | running left e =>
    cases left with
    | zero => simp [Phase.next?, Phase.passes?] at h
    | succ left =>
      cases hheld : e.isHeld with
      | true => simp [next?_of_held _ hheld, passes?_of_held hheld] at h
      | false =>
        rcases instruction_or_end e with ⟨p, i, hp, hi⟩ | hend
        · exact ⟨left, e, p, i, rfl, hheld, hp, hi⟩
        · simp [next?_of_ended _ hend, passes?_of_end hend] at h

end Cutscene
