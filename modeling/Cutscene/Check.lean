import Cutscene.Command.Standard
import Cutscene.Headless.Report

/-! Checking scripts without running them: every line has to be read, and every call has to name a
command and give it the right number of parameters. -/

namespace Cutscene.Check

structure Report where
  files : Nat
  instructions : Nat
  diagnostics : List Fault

def Report.isClean (r : Report) : Bool := r.diagnostics.isEmpty

/-- What is wrong with an instruction of a file. -/
def fault? (table : CommandTable) (file : String) (i : Instruction) : Option Fault :=
  match table.check i with
  | .ok () => none
  | .error cause => some { cause, location := some ⟨file, i.line⟩ }

/-- The faults of one source text: those of its lines, then those of its calls. -/
def faults (table : CommandTable) (file source : String) : List Fault :=
  let parsed := Script.parse file source
  parsed.faults ++ parsed.script.instructions.filterMap (fault? table file)

def scripts (table : CommandTable) (shelf : Shelf) : Report where
  files := shelf.length
  instructions := (shelf.flatMap fun (file, source) =>
    (Script.parse file source).script.instructions).length
  diagnostics := shelf.flatMap fun (file, source) => faults table file source

def Report.lines (r : Report) : List String :=
  ["RESULT:" ++ if r.isClean then "OK" else "INVALID",
    "FILES:" ++ Decimal.text r.files,
    "INSTRUCTIONS:" ++ Decimal.text r.instructions] ++
    r.diagnostics.map Fault.diagnosticLine

end Cutscene.Check
