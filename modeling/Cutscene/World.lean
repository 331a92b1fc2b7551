import Cutscene.Effect

/-! The world that scripts act on. A world has variables; everything else it may leave out, and then
an effect changes nothing and whatever is waited for has already ended. -/

namespace Cutscene

/-- What a script can wait for in the world. -/
inductive Activity where
  | movement (m : Movement)
  | fadeIn
  | fadeOut
  | action (actor : String)
  | camera
  | trade
  deriving DecidableEq, Repr

/-- Why a run gives up: a request outside what the world, a clock or a count can represent, or a
second wait on top of one. -/
inductive Breakdown where
  | talkRange (first last : Int32)
  | goodsCount (name : String)
  | clock
  | visits (key : String)
  | secondWait (requested active : String)
  deriving DecidableEq, Repr

/-- The end of a run by a breakdown, with the world as it stood. -/
structure Crash (ω : Type) where
  breakdown : Breakdown
  world : ω

class World (ω : Type) where
  getVariable : ω → String → Int32
  setVariable : ω → String → Int32 → ω
  /-- The talk lines with numbers between two ends; none for a range the world does not take. -/
  talkLines? : ω → Int32 → Int32 → Option (List TalkLine) := fun _ _ _ => some []
  mapPath : ω → String := fun _ => ""
  money : ω → Int32 := fun _ => 0
  goodsCount : ω → String → Int32 := fun _ _ => 0
  perform : ω → Effect → Except (Crash ω) ω := fun w _ => .ok w
  isFinished : ω → Activity → Bool := fun _ _ => true

end Cutscene
