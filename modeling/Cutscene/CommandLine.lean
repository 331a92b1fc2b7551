import Cutscene.Decimal

/-! The arguments of the program: a subcommand and its options. An option's value follows it as an
argument of its own, which does not begin with a dash, or after an equals sign. -/

namespace Cutscene.CommandLine

/-- What the arguments ask for when it is no subcommand. -/
inductive Stop where
  | help
  | misuse
  deriving DecidableEq, Repr

def Stop.exitCode : Stop → Nat
  | .help => 0
  | .misuse => 2

structure RunOptions where
  scriptsDir : String
  entry : String := "main.txt"
  choices : List Int32 := []
  vars : Option String := none
  maxFrames : Nat := 600
  frameMs : Int := 16
  seed : Option UInt32 := none
  stateOut : Option String := none

inductive Request where
  | run (options : RunOptions)
  | check (scriptsDir : String)

inductive Kind where
  | text
  /-- A whole number of an interval. -/
  | number (i : Interval)
  deriving DecidableEq, Repr

structure Flag where
  name : String
  kind : Kind
  repeats : Bool := false
  deriving DecidableEq, Repr

/-- The options given, with their values as written, in order. -/
abbrev Given := List (String × String)

def runFlags : List Flag := [
  { name := "scripts-dir", kind := .text },
  { name := "entry", kind := .text },
  { name := "choice", kind := .number .word32, repeats := true },
  { name := "vars", kind := .text },
  { name := "max-frames", kind := .number .count32 },
  { name := "frame-ms", kind := .number .word64 },
  { name := "seed", kind := .number .count32 },
  { name := "state-out", kind := .text }]

def checkFlags : List Flag := [{ name := "scripts-dir", kind := .text }]

def Kind.accepts (k : Kind) (value : String) : Bool :=
  match k with
  | .text => true
  | .number i => match Decimal.integer? value.toList with
    | some n => i.contains n
    | none => false

def give (flag : Flag) (value : String) (given : Given) : Except Stop Given :=
  if !flag.repeats && given.any (·.1 = flag.name) then .error .misuse
  else if flag.kind.accepts value then .ok (given ++ [(flag.name, value)])
  else .error .misuse

/-- The forms that an argument can have. -/
inductive Argument where
  | endOfOptions
  | long (name : String) (value : Option String)
  | short (letters : List Char)
  | bare (value : String)

def Argument.ofString (s : String) : Argument :=
  match s.toList with
  | ['-', '-'] => .endOfOptions
  | '-' :: '-' :: rest =>
    let name := String.ofList (rest.takeWhile (· ≠ '='))
    match rest.dropWhile (· ≠ '=') with
    | [] => .long name none
    | _ :: value => .long name (some (String.ofList value))
  | '-' :: c :: rest => .short (c :: rest)
  | _ => .bare s

/-- Reads the options of a subcommand. An option that waits for its value takes the next argument
that is bare, and nothing else may come between. -/
def readFlags (flags : List Flag) (pending : Option Flag) (given : Given) :
    List String → Except Stop Given
  | [] => if pending.isSome then .error .misuse else .ok given
  | s :: rest => match Argument.ofString s, pending with
    | .bare value, some flag => do readFlags flags none (← give flag value given) rest
    | _, some _ => .error .misuse
    | .bare _, none => .error .misuse
    | .endOfOptions, none => if rest.isEmpty then .ok given else .error .misuse
    | .short letters, none => .error (if letters.head? = some 'h' then .help else .misuse)
    | .long name value, none =>
      if name = "help" then .error (if value.isSome then .misuse else .help)
      else match flags.find? (·.name = name), value with
        | none, _ => .error .misuse
        | some flag, none => readFlags flags (some flag) given rest
        | some flag, some v => do readFlags flags none (← give flag v given) rest

namespace Given

def all (g : Given) (name : String) : List String :=
  (g.filter (·.1 = name)).map Prod.snd

def first? (g : Given) (name : String) : Option String := (all g name).head?

def number? (g : Given) (name : String) : Option Int :=
  (first? g name).bind fun s => Decimal.integer? s.toList

end Given

def runRequest (given : Given) : Except Stop Request :=
  match Given.first? given "scripts-dir" with
  | none => .error .misuse
  | some scriptsDir =>
    let choices := (Given.all given "choice").filterMap fun s => Decimal.integer? s.toList
    .ok (.run {
      scriptsDir
      entry := (Given.first? given "entry").getD "main.txt"
      choices := choices.map Int32.ofInt
      vars := Given.first? given "vars"
      maxFrames := ((Given.number? given "max-frames").getD 600).toNat
      frameMs := (Given.number? given "frame-ms").getD 16
      seed := (Given.number? given "seed").map fun n => UInt32.ofNat n.toNat
      stateOut := Given.first? given "state-out" })

def checkRequest (given : Given) : Except Stop Request :=
  match Given.first? given "scripts-dir" with
  | none => .error .misuse
  | some scriptsDir => .ok (.check scriptsDir)

def helpTopics : List String := ["run", "check", "help"]

/-- What the arguments ask for. -/
def read : List String → Except Stop Request
  | [] => .error .misuse
  | "run" :: rest => do runRequest (← readFlags runFlags none [] rest)
  | "check" :: rest => do checkRequest (← readFlags checkFlags none [] rest)
  | "help" :: rest => match rest with
    | [] => .error .help
    | [topic] => .error (if helpTopics.contains topic then .help else .misuse)
    | _ => .error .misuse
  | s :: _ => match Argument.ofString s with
    | .long "help" none => .error .help
    | .short ('h' :: _) => .error .help
    | _ => .error .misuse

end Cutscene.CommandLine
