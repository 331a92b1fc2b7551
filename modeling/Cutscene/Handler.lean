import Cutscene.Routine

/-! Handlers. What a command does is a routine; what it comes to is a plan, which looks at the call
and at the world and answers with one action or a fault. The routine follows the plan: it reads all
that it reads before the one action it takes, and a fault of its reading ends it before the
action. -/

namespace Cutscene

/-- What a command asks the chain to do. -/
inductive Action where
  /-- Go on to the next line. -/
  | proceed
  /-- Change the world and go on, or wait where a wait is given. -/
  | perform (effect : Effect) (wait : Option Wait)
  | park (wait : Wait)
  | assign (name : String) (value : Int32)
  /-- Give a variable a random value between two ends. -/
  | draw (name : String) (a b : Int32)
  /-- Show a range of the talk table, one dialog at a time. -/
  | talk (first last : Int32)
  | jump (label : String)
  | run (target : String)
  | goBack
  /-- Stay at the line as it is. -/
  | stay
  /-- Claim to wait without saying for what. -/
  | stall
  deriving DecidableEq, Repr

def Action.routine : Action → Routine Flow
  | .proceed => .proceed
  | .perform effect none => .perform effect .proceed
  | .perform effect (some wait) => .perform effect (.suspend wait)
  | .park wait => .suspend wait
  | .assign name value => .setVariable name value .proceed
  | .draw name a b => .random a b fun value => .setVariable name value .proceed
  | .talk first last => .showLines first last
  | .jump label => .jumpTo label
  | .run target => .callScript target
  | .goBack => .goBack
  | .stay => .done .jump
  | .stall => .done .suspend

abbrev Plan := View → Except Fault Action

namespace Routine

inductive Follows : Routine Flow → Plan → Prop
  | act (action : Action) : Follows action.routine fun _ => .ok action
  | fail (f : Fault) : Follows (.fail f) fun _ => .error f
  | read {α : Type} {f : View → Except Fault α} {next : α → Routine Flow} {plan : α → Plan}
      (rest : ∀ a, (next a).Follows (plan a)) :
      Follows (read f >>= next) fun v => f v >>= fun a => plan a v

end Routine

/-- A routine together with the plan that it follows. As a function it is the plan. -/
structure Handler where
  routine : Routine Flow
  plan : Plan
  follows : routine.Follows plan

instance : CoeFun Handler fun _ => Plan := ⟨Handler.plan⟩

end Cutscene
