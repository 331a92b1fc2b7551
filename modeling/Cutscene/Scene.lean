import Cutscene.Cache
import Cutscene.World

/-! What the chains of a scene share: the world, the scripts read so far, and the trace that
observed chains leave. -/

namespace Cutscene

inductive Event where
  /-- A script starts, with the number of its lines and all of them as written. -/
  | started (file : String) (total : Nat) (lines : List String)
  /-- A command is about to run, at its place in the script. -/
  | reached (file : String) (index : Nat)
  deriving DecidableEq, Repr

structure Scene (ω : Type) where
  world : ω
  cache : Cache
  trace : Array Event := #[]

end Cutscene
