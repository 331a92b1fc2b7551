import Cutscene.Arity
import Cutscene.Handler

/-! Commands: what can be called, with how many parameters, and what it does. Names are told apart
without regard to case. -/

namespace Cutscene

structure Command where
  name : String
  arity : Arity
  handler : Handler

/-- The commands by name in small letters. -/
abbrev CommandTable := Dict String Command

namespace CommandTable

def key (name : String) : String := Text.onChars Text.lower name

/-- Replaces a command of the same name. -/
def register (t : CommandTable) (c : Command) : CommandTable := t.insert (key c.name) c

def find? (t : CommandTable) (name : String) : Option Command := t.get? (key name)

def contains (t : CommandTable) (name : String) : Bool := (t.find? name).isSome

/-- The names as registered, in alphabetical order. -/
def names (t : CommandTable) : List String :=
  (t.map fun p => p.2.name).mergeSort fun a b => decide (a ≤ b)

/-- The command that a call is for, if the call has the right number of parameters. -/
def resolve (t : CommandTable) (c : Call) : Except Cause Command :=
  match t.find? c.name with
  | none => .error (.commandUnknown c.name)
  | some command =>
    if command.arity.accepts c.parameters.length then .ok command
    else .error (.parameterCount command.name command.arity c.parameters.length)

/-- Checks an instruction without running it. -/
def check (t : CommandTable) : Instruction → Except Cause Unit
  | .marker .. => .ok ()
  | .call c => (t.resolve c).map fun _ => ()

end CommandTable

end Cutscene
