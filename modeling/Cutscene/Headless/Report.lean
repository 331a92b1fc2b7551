import Cutscene.Headless
import Cutscene.Wait.Json

/-! The written forms of a run's report: the lines of the program's output, and the JSON document
that a run leaves on request. -/

namespace Cutscene

def Fault.json (f : Fault) : Json :=
  .record [("code", .text f.code), ("message", .text f.message),
    ("file", Json.ofOption (fun l => .text l.file) f.location),
    ("line", Json.ofOption (fun l => .int l.line) f.location)]

def Fault.diagnosticLine (f : Fault) : String :=
  "DIAGNOSTIC:" ++ f.code ++ "|" ++ f.json.compact

/-- The lines that tell of a failure which ends the program. -/
def Fault.errorLines (f : Fault) : List String :=
  ["RESULT:ERROR", "ERROR_CODE:" ++ f.code, "ERROR_MSG_JSON:" ++ Json.quote f.message] ++
    match f.location with
    | some l => ["ERROR_AT:" ++ l.text]
    | none => []

namespace Headless

def Ending.line : Ending → String
  | .done => "END"
  | .outOfFrames => "MAX_FRAMES"

def Ending.tag : Ending → String
  | .done => "end"
  | .outOfFrames => "max_frames"

def varsJson (vars : Dict String Int32) : Json :=
  .record (vars.map fun (name, value) => (name, Json.ofWord value))

namespace Report

def json (r : Report) : Json :=
  .record [("schemaVersion", .text "qs-run-report.v1"),
    ("entry", .text r.entry),
    ("event", .text r.ending.tag),
    ("frames", .int r.frames),
    ("dialogsClosed", .int r.dialogs),
    ("selections", .list (r.selections.map Json.ofWord)),
    ("calls", .list (r.calls.map Json.text)),
    ("diagnostics", .list (r.diagnostics.map Fault.json)),
    ("variables", varsJson r.vars)]

def lines (r : Report) (stateOut : Option String) : List String :=
  ["RESULT:OK", "EVENT:" ++ r.ending.line, "FRAMES:" ++ Decimal.text r.frames] ++
    r.calls.map (fun call => "CALL_JSON:" ++ Json.quote call) ++
    r.diagnostics.map Fault.diagnosticLine ++
    ["VARS_JSON:" ++ (varsJson r.vars).compact, "STATE_OUT:" ++ stateOut.getD "NONE"]

end Report

end Headless

end Cutscene
