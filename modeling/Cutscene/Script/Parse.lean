import Cutscene.Script.Line
import Cutscene.Text.Lines

/-! Script text. Blank lines and comment lines are left out; every other line gives an instruction
or a fault, and a faulty line does not keep the others from being read. -/

namespace Cutscene.Script

/-- A script with the faults of the lines that are not in it. -/
structure Parsed where
  script : Script
  faults : List Fault

def isIgnored (line : List Char) : Bool := line.isEmpty || startsComment line

/-- The lines that count, trimmed, with their numbers from `first` on. -/
def numbered (first : Nat) (source : List Char) : List (List Char × Nat) :=
  ((Text.lines source).map Text.trim).zipIdx first |>.filter fun p => !isIgnored p.1

/-- Takes a byte order mark off the front. -/
def dropMark (source : List Char) : List Char := Text.dropFront '\ufeff' source

/-- The reading of each line that counts. -/
def readings (file : String) (source : List Char) : List (Except Fault Instruction) :=
  (numbered 1 (dropMark source)).map fun (line, number) =>
    match readLine line number with
    | .ok i => .ok i
    | .error cause => .error { cause, location := some ⟨file, number⟩ }

def instruction? : Except Fault Instruction → Option Instruction
  | .ok i => some i
  | .error _ => none

def fault? : Except Fault Instruction → Option Fault
  | .ok _ => none
  | .error f => some f

def parse (file source : String) : Parsed :=
  let found := readings file source.toList
  ⟨⟨file, found.filterMap instruction?⟩, found.filterMap fault?⟩

/-- Refuses a text with a faulty line, for the first of them. -/
def parseStrict (file source : String) : Except Fault Script :=
  let parsed := parse file source
  match parsed.faults with
  | [] => .ok parsed.script
  | f :: _ => .error f

end Cutscene.Script
