import Cutscene.Dict
import Cutscene.World

/-! A world in memory that keeps every effect it was asked for. Activities have always ended, unless
their key is blocked. -/

namespace Cutscene

/-- The talk table: lines by their numbers, in ascending order. -/
structure TalkTable where
  entries : Dict Int32 TalkLine
  sorted : entries.Sorted

namespace TalkTable

instance : EmptyCollection TalkTable := ⟨⟨[], List.Pairwise.nil⟩⟩

def ofPairs (pairs : List (Int32 × TalkLine)) : TalkTable :=
  ⟨Dict.ofPairs pairs, Dict.sorted_ofPairs pairs⟩

/-- The lines with numbers between two ends, in order. -/
def between (t : TalkTable) (first last : Int32) : List TalkLine :=
  (t.entries.filter fun p => decide (first ≤ p.1) && decide (p.1 ≤ last)).map Prod.snd

end TalkTable

structure Recording where
  vars : Dict String Int32 := []
  effects : Array Effect := #[]
  talk : TalkTable := ∅
  map : String := ""
  money : Int32 := 0
  goods : Dict String Int32 := []
  npcs : Dict String (Int32 × Int32) := []
  player : Int32 × Int32 := (0, 0)
  blocked : Dict String Unit := []

namespace Recording

def block (w : Recording) (key : String) : Recording :=
  { w with blocked := w.blocked.insert key () }

def unblock (w : Recording) (key : String) : Recording :=
  { w with blocked := w.blocked.erase key }

def unblockAll (w : Recording) : Recording := { w with blocked := [] }

def isBlocked (w : Recording) (key : String) : Bool := w.blocked.contains key

/-- The effects as readable lines, oldest first. -/
def calls (w : Recording) : List String := w.effects.toList.map Effect.line

def callsWith (w : Recording) (start : String) : List String :=
  w.calls.filter fun line => start.toList.isPrefixOf line.toList

/-- A range with its ends the wrong way round is refused by a table that has lines. -/
def talkLines? (w : Recording) (first last : Int32) : Option (List TalkLine) :=
  if w.talk.entries.isEmpty then some []
  else if last < first then none
  else some (w.talk.between first last)

def goodsCount (w : Recording) (name : String) : Int32 := (w.goods.get? name).getD 0

def setGoods (w : Recording) (name : String) (count : Int) : Recording :=
  { w with goods := w.goods.insert name (Int32.ofInt count) }

/-- A sum of money that stays within a script integer at the top. -/
def limited (n : Int) : Int32 := Int32.ofInt (min (max n 0) Interval.word32.high)

/-- Changes what the world knows of itself; most effects change nothing. -/
def apply (w : Recording) : Effect → Except (Crash Recording) Recording
  | .loadMap map => .ok { w with map }
  | .deleteNpc name => .ok { w with npcs := w.npcs.erase name }
  | .placeNpc name x y => .ok { w with npcs := w.npcs.insert name (x, y) }
  | .placePlayer x y => .ok { w with player := (x, y) }
  | .addGoods name count =>
    let total := (w.goodsCount name).toInt + count.toInt
    if Interval.word32.contains total then .ok (w.setGoods name total)
    else .error ⟨.goodsCount name, w⟩
  | .removeGoods name count =>
    let rest := (w.goodsCount name).toInt - count.toInt
    if Interval.word32.contains rest then .ok (w.setGoods name (max rest 0))
    else .error ⟨.goodsCount name, w.setGoods name (w.goodsCount name).toInt⟩
  | .addMoney amount => .ok { w with money := limited (w.money.toInt + amount.toInt) }
  | .setMoney amount => .ok { w with money := limited amount.toInt }
  | _ => .ok w

def perform (w : Recording) (e : Effect) : Except (Crash Recording) Recording :=
  match w.apply e with
  | .ok w => .ok { w with effects := w.effects.push e }
  | .error crash => .error crash

/-- The key that blocks an activity. -/
def activityKey : Activity → String
  | .movement m => "movement:" ++ actorKey m.actor
  | .fadeIn => "fadeIn"
  | .fadeOut => "fadeOut"
  | .action actor => "specialAction:" ++ actorKey actor
  | .camera => "moveScreen"
  | .trade => "trade"

instance : World Recording where
  getVariable w name := (w.vars.get? name).getD 0
  setVariable w name value := { w with vars := w.vars.insert name value }
  talkLines? := talkLines?
  mapPath w := w.map
  money w := w.money
  goodsCount := goodsCount
  perform := perform
  isFinished w a := !w.isBlocked (activityKey a)

end Recording

end Cutscene
