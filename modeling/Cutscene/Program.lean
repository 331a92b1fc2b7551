import Cutscene.Check
import Cutscene.CommandLine
import Cutscene.Json.Integers

/-! The program as a function of its arguments and the disk: its exit code, the lines it prints, and
the disk that it leaves. -/

namespace Cutscene.Program

structure Outcome where
  code : Nat
  lines : List String
  disk : Disk

/-- The variables that a run starts with. -/
def loadVariables (d : Disk) (path : String) : Except Fault (Dict String Int32) :=
  if !d.exists? path then .error { cause := .variablesMissing path }
  else match d.readText path with
    | .error reason => .error { cause := .variablesUnreadable path reason }
    | .ok source => match Json.readIntegers source with
      | .ok vars => .ok vars
      | .error reason => .error {
          cause := .variablesMalformed path reason
          location := some ⟨path, reason.line⟩ }

/-- The folder in which a report is written. -/
def reportFolder (path : String) : String :=
  match Disk.parent? path with
  | some "" => "."
  | some folder => folder
  | none => "."

def saveReport (d : Disk) (path : String) (r : Headless.Report) : Except Fault Disk :=
  let folder := reportFolder path
  match d.makeFolders folder with
  | .error reason => .error { cause := .reportUnwritable folder reason }
  | .ok d => match d.writeText path r.json.pretty with
    | .ok d => .ok d
    | .error reason => .error { cause := .reportUnwritable path reason }

def runScripts (d : Disk) (o : CommandLine.RunOptions) :
    Except Headless.Halt (Headless.Report) := do
  let asHalt {α : Type} (r : Except Fault α) : Except Headless.Halt α := r.mapError .fault
  let scripts ← asHalt (ScriptFolder.load d o.scriptsDir)
  let vars ← match o.vars with
    | none => pure []
    | some path => asHalt (loadVariables d path)
  Headless.run scripts vars { seed := o.seed } {
    entry := o.entry, choices := o.choices, maxFrames := o.maxFrames, frameMs := o.frameMs }

def fail (d : Disk) (f : Fault) : Outcome := ⟨1, f.errorLines, d⟩

/-- Runs the program; a breakdown of the world ends it without an outcome. -/
def run (d : Disk) (arguments : List String) : Except Breakdown Outcome :=
  match CommandLine.read arguments with
  | .error stop => .ok ⟨stop.exitCode, [], d⟩
  | .ok (.check scriptsDir) => match ScriptFolder.load d scriptsDir with
    | .error f => .ok (fail d f)
    | .ok scripts =>
      let report := Check.scripts .standard scripts
      .ok ⟨if report.isClean then 0 else 1, report.lines, d⟩
  | .ok (.run o) => match runScripts d o with
    | .error (.breakdown b) => .error b
    | .error (.fault f) => .ok (fail d f)
    | .ok report => match o.stateOut with
      | none => .ok ⟨0, report.lines none, d⟩
      | some path => match saveReport d path report with
        | .error f => .ok (fail d f)
        | .ok d => .ok ⟨0, report.lines (some path), d⟩

end Cutscene.Program
