import Cutscene.Arity
import Cutscene.Disk.Error
import Cutscene.Json.Error

/-! What can go wrong in a script, in starting one, or around a run. A fault is a cause and, where
it is known, the script line that it stands at. Every cause has a code, by which faults are told
apart, and a message. -/

namespace Cutscene

structure Location where
  file : String
  line : Nat
  deriving DecidableEq, Repr

def Location.text (l : Location) : String := l.file ++ ":" ++ Decimal.text l.line

inductive Cause where
  | labelMalformed (line : String)
  | lineMalformed (line : String)
  | textUnterminated
  | parenthesisUnclosed
  | conditionEmpty
  | operandMissing (condition : String)
  | operatorUnknown (token : String)
  | commandUnknown (name : String)
  | parameterCount (command : String) (expected : Arity) (given : Nat)
  /-- A sound takes a file alone or a file and both coordinates. -/
  | soundParameterCount (given : Nat)
  | parameterMissing (command : String) (index : Nat)
  | parameterNotInteger (command : String) (index : Nat) (raw : String)
  | parameterNotVariable (command : String) (index : Nat) (raw : String)
  | ownerMissing (command : String)
  | ownerNotObject
  | targetMissing
  | talkEmpty (first last : Int32)
  | scriptMissing
  | labelMissing (label file : String)
  | depthExceeded (limit : Nat) (target : String)
  | stepsExceeded (limit : Nat)
  | waitMissing (command : String)
  | noDialog
  | noSelection
  | scriptUnavailable (path : String)
  | scriptNotUnder (path root : String)
  | noCandidate (paths : List String)
  | scriptUnreadable (file : String) (reason : Disk.Error)
  | rootNotDirectory (root : String)
  | sourceMissing (path : String)
  | sourceNotDirectory (path : String)
  | sourceEmpty (path : String)
  | sourceUnreadable (path : String) (reason : Disk.Error)
  | variablesMissing (path : String)
  | variablesUnreadable (path : String) (reason : Disk.Error)
  | variablesMalformed (path : String) (reason : Json.Error)
  | reportUnwritable (path : String) (reason : Disk.Error)
  /-- A cause that the host or one of its commands states in its own words. -/
  | stated (code message : String)

namespace Cause

/-- The code of the causes that let a search go on with the next candidate. -/
def notFoundCode : String := "CACHE_SCRIPT_NOT_FOUND"

/-- The code of a yield at the step limit, of which a chain holds one at most. -/
def stepsCode : String := "ENGINE_STEP_GUARD"

def code : Cause → String
  | .labelMalformed _ => "PARSE_LABEL_INVALID"
  | .lineMalformed _ => "PARSE_LINE_INVALID"
  | .textUnterminated => "PARSE_UNTERMINATED_STRING"
  | .parenthesisUnclosed => "PARSE_UNCLOSED_PAREN"
  | .conditionEmpty => "CONDITION_EMPTY"
  | .operandMissing _ => "CONDITION_OPERAND_MISSING"
  | .operatorUnknown _ => "CONDITION_OPERATOR"
  | .commandUnknown _ => "COMMAND_UNKNOWN"
  | .parameterCount .. => "COMMAND_ARITY"
  | .soundParameterCount _ => "COMMAND_ARITY"
  | .parameterMissing .. => "COMMAND_PARAM_MISSING"
  | .parameterNotInteger .. => "COMMAND_PARAM_INT"
  | .parameterNotVariable .. => "COMMAND_PARAM_VARIABLE"
  | .ownerMissing _ => "COMMAND_NO_BELONG_OBJECT"
  | .ownerNotObject => "COMMAND_NO_BELONG_OBJECT"
  | .targetMissing => "COMMAND_IF_TARGET"
  | .talkEmpty .. => "COMMAND_TALK_EMPTY"
  | .scriptMissing => "ENGINE_NO_PROGRAM"
  | .labelMissing .. => "ENGINE_LABEL_MISSING"
  | .depthExceeded .. => "ENGINE_CALL_DEPTH"
  | .stepsExceeded _ => stepsCode
  | .waitMissing _ => "ENGINE_SUSPEND_WITHOUT_WAIT"
  | .noDialog => "ENGINE_NO_PENDING_DIALOG"
  | .noSelection => "ENGINE_NO_PENDING_SELECTION"
  | .scriptUnavailable _ => notFoundCode
  | .scriptNotUnder .. => notFoundCode
  | .noCandidate _ => notFoundCode
  | .scriptUnreadable .. => "CACHE_SCRIPT_READ"
  | .rootNotDirectory _ => "CACHE_ROOT_NOT_DIR"
  | .sourceMissing _ => "CLI_SOURCE_NOT_FOUND"
  | .sourceNotDirectory _ => "CLI_SOURCE_NOT_DIR"
  | .sourceEmpty _ => "CLI_SOURCE_EMPTY"
  | .sourceUnreadable .. => "CLI_SOURCE_READ"
  | .variablesMissing _ => "CLI_VARS_NOT_FOUND"
  | .variablesUnreadable .. => "CLI_VARS_READ"
  | .variablesMalformed .. => "CLI_VARS_INVALID"
  | .reportUnwritable .. => "CLI_STATE_WRITE"
  | .stated code _ => code

/-- A text as it stands in a message. -/
def shown (s : String) : String := "\"" ++ s ++ "\""

def message : Cause → String
  | .labelMalformed line => "Malformed label line " ++ shown line ++ "."
  | .lineMalformed line => "Line " ++ shown line ++ " is neither a label nor a command."
  | .textUnterminated => "String literal is not terminated."
  | .parenthesisUnclosed => "Parameter list is missing a closing parenthesis."
  | .conditionEmpty => "Condition expression is empty."
  | .operandMissing condition => "Condition " ++ shown condition ++ " is missing an operand."
  | .operatorUnknown token => "Unsupported operator " ++ shown token ++ "."
  | .commandUnknown name => "Unknown command " ++ shown name ++ "."
  | .parameterCount command expected given =>
    "Command " ++ shown command ++ " expects " ++ expected.text ++ " parameter(s), got " ++
      Decimal.text given ++ "."
  | .soundParameterCount given =>
    "PlaySound takes 1 or 3 parameters, got " ++ Decimal.text given ++ "."
  | .parameterMissing command index =>
    "Command " ++ shown command ++ " has no parameter " ++ Decimal.text (index + 1) ++ "."
  | .parameterNotInteger command index raw =>
    "Parameter " ++ Decimal.text (index + 1) ++ " of " ++ shown command ++
      " is not an integer: " ++ shown raw ++ "."
  | .parameterNotVariable command index raw =>
    "Parameter " ++ Decimal.text (index + 1) ++ " of " ++ shown command ++
      " must be a $variable, got " ++ shown raw ++ "."
  | .ownerMissing command =>
    "Command " ++ shown command ++ " needs an actor but the script has no owner."
  | .ownerNotObject => "DelCurObj needs a script owned by an object."
  | .targetMissing => "If needs a label to jump to."
  | .talkEmpty first last => "No talk lines in " ++ first.text ++ "..=" ++ last.text ++ "."
  | .scriptMissing => "No program is loaded for a jump."
  | .labelMissing label file => "Label " ++ shown label ++ " not found in " ++ shown file ++ "."
  | .depthExceeded limit target =>
    "Call depth limit " ++ Decimal.text limit ++ " reached; " ++ shown target ++ " not started."
  | .stepsExceeded limit =>
    "Yielded after " ++ Decimal.text limit ++ " instructions without a wait."
  | .waitMissing command => shown command ++ " suspended without a wait."
  | .noDialog => "No dialog is waiting to be closed."
  | .noSelection => "No selection is waiting for a choice."
  | .scriptUnavailable path => "Script " ++ shown path ++ " is not available."
  | .scriptNotUnder path root => "Script " ++ shown path ++ " not found under " ++ root ++ "."
  | .noCandidate paths => "None of [" ++ ", ".intercalate paths ++ "] could be loaded."
  | .scriptUnreadable file reason => file ++ ": " ++ reason.message
  | .rootNotDirectory root => "Script root is not a directory: " ++ root
  | .sourceMissing path => "scripts-dir does not exist: " ++ path
  | .sourceNotDirectory path => "scripts-dir is not a directory: " ++ path
  | .sourceEmpty path => "No .txt scripts under " ++ path
  | .sourceUnreadable path reason => path ++ ": " ++ reason.message
  | .variablesMissing path => "Variables file does not exist: " ++ path
  | .variablesUnreadable path reason => path ++ ": " ++ reason.message
  | .variablesMalformed path reason =>
    path ++ ": column " ++ Decimal.text reason.column ++ ": " ++ reason.message
  | .reportUnwritable path reason => path ++ ": " ++ reason.message
  | .stated _ message => message

end Cause

structure Fault where
  cause : Cause
  location : Option Location := none

namespace Fault

def code (f : Fault) : String := f.cause.code

def message (f : Fault) : String := f.cause.message

def text (f : Fault) : String := f.code ++ ": " ++ f.message

/-- States where the fault stands, unless it is known already. -/
def located (f : Fault) (file : String) (line : Nat) : Fault :=
  match f.location with
  | some _ => f
  | none => { f with location := some ⟨file, line⟩ }

end Fault

end Cutscene
