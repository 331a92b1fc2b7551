import Cutscene.Json
import Cutscene.Wait

/-! Waits as JSON. The kind of a wait is the record's tag. A movement has a kind of its own under the
same name, which is written over the tag, so its record cannot be read back as a wait. What is
written as a record is read from a list as well, with the tag in front and the fields in order. -/

namespace Cutscene

namespace Json

def ofWord (n : Int32) : Json := .int n.toInt

def int? : Json → Option Int
  | .int n => some n
  | _ => none

def text? : Json → Option String
  | .text s => some s
  | _ => none

def word? (j : Json) : Option Int32 :=
  j.int?.bind fun n => if Interval.word32.contains n then some (Int32.ofInt n) else none

/-- The values under some names. A field that a record leaves out counts as null; a list has the
values in order, and no others. -/
def values? (names : List String) : Json → Option (List Json)
  | .record fields => some (names.map fun name => ((Json.record fields).field? name).getD .null)
  | .list values => if values.length = names.length then some values else none
  | _ => none

/-- The tag, and what is left without it. -/
def tagged? : Json → Option (String × Json)
  | .record fields => do
    return (← (← (Json.record fields).field? "kind").text?,
      .record (fields.filter (·.1 != "kind")))
  | .list (tag :: rest) => do return (← tag.text?, .list rest)
  | _ => none

/-- Whether a tag stands alone. What else a record has makes no difference. -/
def isBare : Json → Bool
  | .record _ => true
  | .list values => values.isEmpty
  | _ => false

end Json

def TalkLine.json (l : TalkLine) : Json :=
  .record [("text", .text l.text), ("portraitIndex", Json.ofWord l.portrait)]

def TalkLine.ofJson? (j : Json) : Option TalkLine := do
  match ← j.values? ["text", "portraitIndex"] with
  | [.text text, portrait] => return ⟨text, ← portrait.word?⟩
  | _ => none

def Gait.tag : Gait → String
  | .npcWalk => "npcGoto"
  | .npcWalkDirection => "npcGotoDir"
  | .playerWalk => "playerGoto"
  | .playerWalkDirection => "playerGotoDir"
  | .playerRun => "playerRunTo"
  | .playerJump => "playerJumpTo"

def Gait.all : List Gait :=
  [.npcWalk, .npcWalkDirection, .playerWalk, .playerWalkDirection, .playerRun, .playerJump]

def Gait.ofTag? (tag : String) : Option Gait := Gait.all.find? (·.tag = tag)

/-- A gait is its tag, or a record of nothing under this name. -/
def Gait.ofJson? : Json → Option Gait
  | .text tag => Gait.ofTag? tag
  | .record [(tag, .null)] => Gait.ofTag? tag
  | _ => none

theorem Gait.ofTag?_tag (g : Gait) : Gait.ofTag? g.tag = some g := by
  cases g <;> decide

def Target.json : Target → Json
  | .tile x y => .record [("kind", .text "tile"), ("x", Json.ofWord x), ("y", Json.ofWord y)]
  | .direction d n => .record [("kind", .text "direction"), ("direction", Json.ofWord d),
      ("steps", Json.ofWord n)]

def Target.ofJson? (j : Json) : Option Target := do
  let (tag, rest) ← j.tagged?
  match tag with
  | "tile" => match ← rest.values? ["x", "y"] with
    | [x, y] => return .tile (← x.word?) (← y.word?)
    | _ => none
  | "direction" => match ← rest.values? ["direction", "steps"] with
    | [d, n] => return .direction (← d.word?) (← n.word?)
    | _ => none
  | _ => none

namespace Movement

def fields (m : Movement) : List (String × Json) :=
  [("kind", .text m.gait.tag), ("actor", .text m.actor), ("target", m.target.json)]

def json (m : Movement) : Json := .record m.fields

def ofJson? (j : Json) : Option Movement := do
  match ← j.values? ["kind", "actor", "target"] with
  | [gait, .text actor, target] => return ⟨← Gait.ofJson? gait, actor, ← Target.ofJson? target⟩
  | _ => none

end Movement

namespace Wait

/-- The fields next to the tag. -/
def fields : Wait → List (String × Json)
  | .timer remaining => [("remaining_ms", .int remaining)]
  | .dialog => [("result_variable", .null)]
  | .selection result => [("result_variable", .text result)]
  | .talk remaining => [("remaining", .list (remaining.map TalkLine.json))]
  | .activity (.movement m) => m.fields
  | .activity (.action actor) => [("actor", .text actor)]
  | .activity _ => []

def json (w : Wait) : Json := Json.overwrite (("kind", .text w.name) :: w.fields)

def ofJson? (j : Json) : Option Wait := do
  let (tag, rest) ← j.tagged?
  match tag with
  | "timer" => match ← rest.values? ["remaining_ms"] with
    | [.int remaining] =>
      if Interval.word64.contains remaining then some (.timer remaining) else none
    | _ => none
  | "input" => match ← rest.values? ["result_variable"] with
    | [.null] => some .dialog
    | [.text result] => some (.selection result)
    | _ => none
  | "talkQueue" => match ← rest.values? ["remaining"] with
    | [.list lines] => return .talk (← lines.mapM TalkLine.ofJson?)
    | _ => none
  | "movement" => return .activity (.movement (← Movement.ofJson? rest))
  | "fadeIn" => if rest.isBare then some (.activity .fadeIn) else none
  | "fadeOut" => if rest.isBare then some (.activity .fadeOut) else none
  | "specialAction" => match ← rest.values? ["actor"] with
    | [.text actor] => some (.activity (.action actor))
    | _ => none
  | "moveScreen" => if rest.isBare then some (.activity .camera) else none
  | "buyMenu" => if rest.isBare then some (.activity .trade) else none
  | _ => none

end Wait

end Cutscene
