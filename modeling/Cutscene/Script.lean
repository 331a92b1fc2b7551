import Cutscene.Label

/-! Scripts. A script is a file name and a list of instructions, each of them a label marker or the
call of a command; a label stands for its first marker. -/

namespace Cutscene

/-- The call of a command as written: its name, the parameters between the parentheses, and the
text after them. -/
structure Call where
  name : String
  parameters : List String
  result : String
  literal : String
  line : Nat
  deriving DecidableEq, Repr

inductive Instruction where
  /-- The name is in normal form. -/
  | marker (name literal : String) (line : Nat)
  | call (c : Call)
  deriving DecidableEq, Repr

namespace Instruction

def ofLabel (literal : String) (line : Nat) : Instruction :=
  .marker (Label.normalize literal) literal line

def isMarker : Instruction → Bool
  | .marker .. => true
  | .call _ => false

def name : Instruction → String
  | .marker name _ _ => name
  | .call c => c.name

def literal : Instruction → String
  | .marker _ literal _ => literal
  | .call c => c.literal

def line : Instruction → Nat
  | .marker _ _ line => line
  | .call c => c.line

def marks (label : String) : Instruction → Bool
  | .marker name _ _ => name = label
  | .call _ => false

end Instruction

structure Script where
  file : String
  instructions : List Instruction
  deriving DecidableEq, Repr

namespace Script

def length (s : Script) : Nat := s.instructions.length

def literals (s : Script) : List String := s.instructions.map Instruction.literal

/-- The place of the first marker of a label given in normal form. -/
def markerOf? (s : Script) (label : String) : Option Nat :=
  s.instructions.findIdx? (·.marks label)

def labelIndex? (s : Script) (label : String) : Option Nat := s.markerOf? (Label.normalize label)

/-- The labels with their first markers, in script order. -/
def labels (s : Script) : List (String × Nat) :=
  s.instructions.zipIdx.filterMap fun (i, n) =>
    if i.isMarker && s.markerOf? i.name = some n then some (i.name, n) else none

end Script

end Cutscene
