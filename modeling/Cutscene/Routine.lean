import Cutscene.Chain
import Cutscene.Condition
import Cutscene.Fault
import Cutscene.ScriptPath

/-! Routines: what a command does while its call is run. A routine looks at the call and at its
surroundings, and asks for changes of the chain, the world, the random numbers and the cache, in
any order and as often as it likes; each change is there at once, also when the routine fails
behind it. -/

namespace Cutscene

/-- Bounds of a run and the start of its random numbers. -/
structure Options where
  maxDepth : Nat := 64
  maxSteps : Nat := 10000
  seed : Option UInt32 := none
  deriving DecidableEq, Repr

/-- How the chain goes on when a command is done. -/
inductive Flow where
  /-- To the next line. -/
  | proceed
  /-- Not before what it waits for is over. -/
  | suspend
  /-- From where it now stands. -/
  | jump
  deriving DecidableEq, Repr

/-- What a command may look at in its call and in the world. -/
structure View where
  call : Call
  owner : Option Owner
  value : String → Int32
  map : String
  money : Int32
  goodsCount : String → Int32

inductive Routine (α : Type) : Type where
  | done (a : α)
  | fail (f : Fault)
  | breakDown (b : Breakdown)
  | look (next : View → Routine α)
  | chain (next : Chain → Routine α)
  | options (next : Options → Routine α)
  | setChain (c : Chain) (next : Routine α)
  | beginWait (wait : Wait) (next : Routine α)
  | setVariable (name : String) (value : Int32) (next : Routine α)
  | perform (effect : Effect) (next : Routine α)
  | talkLines (first last : Int32) (next : List TalkLine → Routine α)
  /-- A random value between two ends. -/
  | random (a b : Int32) (next : Int32 → Routine α)
  /-- The first script to be found under one of the paths. -/
  | load (paths : List String) (next : Except Fault Script → Routine α)

namespace View

def fail {α : Type} (cause : Cause) : Except Fault α := .error { cause }

def has (v : View) (i : Nat) : Bool := i < v.call.parameters.length

/-- A parameter as written. -/
def raw (v : View) (i : Nat) : Except Fault String :=
  match v.call.parameters[i]? with
  | some s => .ok s
  | none => fail (.parameterMissing v.call.name i)

/-- A parameter with the variables in it written out. -/
def text (v : View) (i : Nat) : Except Fault String :=
  (v.raw i).map (Variable.substitute v.value)

def textOr (v : View) (i : Nat) (default : String) : Except Fault String :=
  if v.has i then v.text i else .ok default

def integer (v : View) (i : Nat) : Except Fault Int32 := do
  let raw ← v.raw i
  match Variable.integer? v.value raw with
  | some n => .ok n
  | none => fail (.parameterNotInteger v.call.name i raw)

/-- A parameter that is left out or blank stands for the default. -/
def integerOr (v : View) (i : Nat) (default : Int32) : Except Fault Int32 :=
  match v.call.parameters[i]? with
  | none => .ok default
  | some raw => if Text.isBlankText raw then .ok default else v.integer i

/-- The variable that a parameter names. -/
def target (v : View) (i : Nat) : Except Fault String := do
  let raw ← v.raw i
  match Variable.name? raw with
  | some name => .ok name
  | none => fail (.parameterNotVariable v.call.name i raw)

/-- The text behind the parameter list. -/
def result (v : View) : String := Text.onChars Text.trim v.call.result

def ownerId (v : View) : Except Fault String :=
  match v.owner with
  | some o => .ok o.id
  | none => fail (.ownerMissing v.call.name)

/-- The actor that a parameter names, or the owner where it is left out or blank. -/
def actor (v : View) (i : Nat) : Except Fault String := do
  if v.has i then
    let name ← v.text i
    if Text.isBlankText name then v.ownerId else .ok name
  else v.ownerId

/-- Whether so many parameters are given. -/
def gives (v : View) (n : Nat) : Bool := v.call.parameters.length = n

/-- A character and an integer; the integer alone speaks of the owner. -/
def actorAndInteger (v : View) : Except Fault (String × Int32) := do
  if 2 ≤ v.call.parameters.length then
    let name ← v.actor 0
    return (name, ← v.integer 1)
  else
    let name ← v.ownerId
    return (name, ← v.integer 0)

/-- A character and a text; the text alone speaks of the owner. -/
def actorAndText (v : View) : Except Fault (String × String) := do
  if v.gives 2 then
    let name ← v.actor 0
    return (name, ← v.text 1)
  else
    let name ← v.ownerId
    return (name, ← v.text 0)

/-- The texts of all parameters from a place on. -/
def textsFrom (v : View) (i : Nat) : Except Fault (List String) :=
  ((List.range v.call.parameters.length).drop i).mapM v.text

/-- The label that a branch jumps to: the second parameter, or else the text behind the list. -/
def branchTarget (v : View) : Except Fault String := if v.has 1 then v.raw 1 else .ok v.result

/-- Whether a condition holds, given as a parameter. -/
def condition (v : View) (i : Nat) : Except Fault Bool := do
  match Condition.evaluate v.value (← v.raw i) with
  | .ok holds => .ok holds
  | .error cause => fail cause

end View

namespace Routine

variable {α β : Type}

def bind : Routine α → (α → Routine β) → Routine β
  | .done a, k => k a
  | .fail f, _ => .fail f
  | .breakDown b, _ => .breakDown b
  | .look next, k => .look fun v => (next v).bind k
  | .chain next, k => .chain fun c => (next c).bind k
  | .options next, k => .options fun o => (next o).bind k
  | .setChain c next, k => .setChain c (next.bind k)
  | .beginWait wait next, k => .beginWait wait (next.bind k)
  | .setVariable name value next, k => .setVariable name value (next.bind k)
  | .perform effect next, k => .perform effect (next.bind k)
  | .talkLines first last next, k => .talkLines first last fun lines => (next lines).bind k
  | .random a b next, k => .random a b fun value => (next value).bind k
  | .load paths next, k => .load paths fun found => (next found).bind k

instance : Monad Routine where
  pure := .done
  bind := bind

/-- What can be told from a look, or the fault in it. -/
def read (f : View → Except Fault α) : Routine α :=
  .look fun v => match f v with
    | .ok a => .done a
    | .error fault => .fail fault

def text (i : Nat) : Routine String := read (·.text i)

def textOr (i : Nat) (default : String) : Routine String := read (·.textOr i default)

def integer (i : Nat) : Routine Int32 := read (·.integer i)

def integerOr (i : Nat) (default : Int32) : Routine Int32 := read (·.integerOr i default)

def target (i : Nat) : Routine String := read (·.target i)

def value (name : String) : Routine Int32 := read fun v => .ok (v.value name)

def actor (i : Nat) : Routine String := read (·.actor i)

def gives (n : Nat) : Routine Bool := read fun v => .ok (v.gives n)

def ownerId : Routine String := read View.ownerId

def proceed : Routine Flow := .done .proceed

def suspend (wait : Wait) : Routine Flow := .beginWait wait (.done .suspend)

/-- Moves just behind the first marker of a label, which counts as a passage. -/
def jumpTo (label : String) : Routine Flow :=
  .chain fun c => match c.script? with
    | none => .fail { cause := .scriptMissing }
    | some script =>
      let name := Label.normalize label
      match script.markerOf? name with
      | none => .fail { cause := .labelMissing name script.file }
      | some i =>
        if c.canCount name then .setChain { c.countVisit name with line := i + 1 } (.done .jump)
        else .breakDown (.visits (c.hereKey name))

/-- Looks for a script and starts it on top of the one that runs. -/
def callScript (target : String) : Routine Flow :=
  .chain fun c => .options fun o =>
    if o.maxDepth < c.depth + 1 then .fail { cause := .depthExceeded o.maxDepth target }
    else .look fun v => .load (ScriptPath.candidates target c.file? v.map) fun
      | .error f => .fail f
      | .ok script => .setChain (c.enter script) (.done .jump)

def goBack : Routine Flow := .chain fun c => .setChain c.goBack (.done .jump)

/-- Shows the first line of a range and queues the others. -/
def showLines (first last : Int32) : Routine Flow :=
  .talkLines first last fun
    | [] => .fail { cause := .talkEmpty first last }
    | line :: rest => .perform (.dialog line.text line.portrait) (suspend (.talk rest))

end Routine

end Cutscene
