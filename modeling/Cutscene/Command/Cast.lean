import Cutscene.Command.Scenery

/-! Commands on characters. Where a command names no character, it means the one that the script
belongs to. -/

namespace Cutscene.Command

/-- An effect on a character by an integer. -/
def onActorInteger (effect : String → Int32 → Effect) : Handler where
  routine := do
    let (name, n) ← .read View.actorAndInteger
    .perform (effect name n) .proceed
  plan v := do
    let (name, n) ← v.actorAndInteger
    return .perform (effect name n) none
  follows := .read fun _ => .act (.perform _ none)

def setNpcScript : Handler where
  routine := do
    let (name, script) ← .read View.actorAndText
    .perform (.setNpcScript name script) .proceed
  plan v := do
    let (name, script) ← v.actorAndText
    return .perform (.setNpcScript name script) none
  follows := .read fun _ => .act (.perform _ none)

def onActor (effect : String → Effect) : Handler where
  routine := do .perform (effect (← .actor 0)) .proceed
  plan v := do return .perform (effect (← v.actor 0)) none
  follows := .read fun _ => .act (.perform _ none)

/-- A zero flag hides. -/
def showNpc : Handler where
  routine := do
    let name ← .actor 0
    .perform (.showNpc name ((← .integerOr 1 1) != 0)) .proceed
  plan v := do
    let name ← v.actor 0
    return .perform (.showNpc name ((← v.integerOr 1 1) != 0)) none
  follows := .read fun _ => .read fun _ => .act (.perform _ none)

/-- Two coordinates speak of the owner. -/
def placeNpc : Handler where
  routine := do
    let three ← .gives 3
    let name ← if three then .actor 0 else .ownerId
    let x ← .integer (if three then 1 else 0)
    .perform (.placeNpc name x (← .integer (if three then 2 else 1))) .proceed
  plan v := do
    let three ← .ok (v.gives 3)
    let name ← if three then v.actor 0 else v.ownerId
    let x ← v.integer (if three then 1 else 0)
    return .perform (.placeNpc name x (← v.integer (if three then 2 else 1))) none
  follows := .read fun three => by
    cases three <;>
      exact .read fun _ => .read fun _ => .read fun _ => .act (.perform _ none)

def placePlayer : Handler where
  routine := do
    let x ← .integer 0
    .perform (.placePlayer x (← .integer 1)) .proceed
  plan v := do
    let x ← v.integer 0
    return .perform (.placePlayer x (← v.integer 1)) none
  follows := .read fun _ => .read fun _ => .act (.perform _ none)

/-- Starts a movement and waits for its end if asked to. -/
def start (m : Movement) (waits : Bool) : Routine Flow :=
  .perform (.move m) (if waits then .suspend (.activity (.movement m)) else .proceed)

/-- What starting a movement comes to. -/
def started (m : Movement) (waits : Bool) : Action :=
  .perform (.move m) (if waits then some (.activity (.movement m)) else none)

theorem start_follows (m : Movement) (waits : Bool) :
    (start m waits).Follows fun _ => .ok (started m waits) := by
  cases waits with
  | true => exact .act (started m true)
  | false => exact .act (started m false)

def moveNpc (gait : Gait) (target : Int32 → Int32 → Target) (waits : Bool) : Handler where
  routine := do
    let actor ← .actor 0
    let a ← .integer 1
    start ⟨gait, actor, target a (← .integer 2)⟩ waits
  plan v := do
    let actor ← v.actor 0
    let a ← v.integer 1
    return started ⟨gait, actor, target a (← v.integer 2)⟩ waits
  follows := .read fun _ => .read fun _ => .read fun _ => start_follows _ waits

def movePlayer (gait : Gait) (target : Int32 → Int32 → Target) (waits : Bool) : Handler where
  routine := do
    let a ← .integer 0
    start ⟨gait, "", target a (← .integer 1)⟩ waits
  plan v := do
    let a ← v.integer 0
    return started ⟨gait, "", target a (← v.integer 1)⟩ waits
  follows := .read fun _ => .read fun _ => start_follows _ waits

/-- Starts an animation and waits for its end if asked to. -/
def animate (actor animation : String) (waits : Bool) : Routine Flow :=
  .perform (.act actor animation)
    (if waits then .suspend (.activity (.action actor)) else .proceed)

/-- What starting an animation comes to. -/
def animated (actor animation : String) (waits : Bool) : Action :=
  .perform (.act actor animation) (if waits then some (.activity (.action actor)) else none)

theorem animate_follows (actor animation : String) (waits : Bool) :
    (animate actor animation waits).Follows fun _ => .ok (animated actor animation waits) := by
  cases waits with
  | true => exact .act (animated actor animation true)
  | false => exact .act (animated actor animation false)

def actNpc (waits : Bool) : Handler where
  routine := do
    let (actor, animation) ← .read View.actorAndText
    animate actor animation waits
  plan v := do
    let (actor, animation) ← v.actorAndText
    return animated actor animation waits
  follows := .read fun _ => animate_follows _ _ waits

def actPlayer : Handler where
  routine := do animate "" (← .text 0) true
  plan v := do return animated "" (← v.text 0) true
  follows := .read fun _ => animate_follows _ _ true

def cast : List Command := [
  ⟨"LoadNpc", .exactly 1, onText .loadNpcs⟩,
  ⟨"AddNpc", .between 3 4, place .addNpc⟩,
  ⟨"DelNpc", .between 0 1, onActor .deleteNpc⟩,
  ⟨"SetNpcPos", .between 2 3, placeNpc⟩,
  ⟨"SetPlayerPos", .exactly 2, placePlayer⟩,
  ⟨"NpcGoto", .exactly 3, moveNpc .npcWalk .tile true⟩,
  ⟨"NpcGotoEx", .exactly 3, moveNpc .npcWalk .tile false⟩,
  ⟨"NpcGotoDir", .exactly 3, moveNpc .npcWalkDirection .direction true⟩,
  ⟨"PlayerGoto", .exactly 2, movePlayer .playerWalk .tile true⟩,
  ⟨"PlayerGotoEx", .exactly 2, movePlayer .playerWalk .tile false⟩,
  ⟨"PlayerRunTo", .exactly 2, movePlayer .playerRun .tile true⟩,
  ⟨"PlayerRunToEx", .exactly 2, movePlayer .playerRun .tile false⟩,
  ⟨"PlayerJumpTo", .exactly 2, movePlayer .playerJump .tile true⟩,
  ⟨"PlayerGotoDir", .exactly 2, movePlayer .playerWalkDirection .direction true⟩,
  ⟨"SetNpcDir", .between 1 2, onActorInteger .turnNpc⟩,
  ⟨"SetPlayerDir", .exactly 1, onInteger .turnPlayer⟩,
  ⟨"SetNpcState", .between 1 2, onActorInteger .setNpcState⟩,
  ⟨"SetPlayerState", .exactly 1, onInteger .setPlayerState⟩,
  ⟨"SetNpcLevel", .between 1 2, onActorInteger .setNpcLevel⟩,
  ⟨"SetLevel", .exactly 1, onInteger .setPlayerLevel⟩,
  ⟨"SetNpcRelation", .between 1 2, onActorInteger .setNpcRelation⟩,
  ⟨"SetNpcScript", .between 1 2, setNpcScript⟩,
  ⟨"HideNpc", .between 0 1, onActor (.showNpc · false)⟩,
  ⟨"ShowNpc", .between 0 2, showNpc⟩,
  ⟨"NpcSpecialAction", .between 1 2, actNpc true⟩,
  ⟨"NpcSpecialActionEx", .between 1 2, actNpc false⟩,
  ⟨"PlayerSpecialAction", .exactly 1, actPlayer⟩,
  ⟨"DisableNpcAI", .exactly 0, plain (.enableNpcs false)⟩,
  ⟨"EnableNpcAI", .exactly 0, plain (.enableNpcs true)⟩,
  ⟨"AddExp", .exactly 1, onInteger .addExperience⟩,
  ⟨"FullLife", .exactly 0, plain (.restore .life none)⟩,
  ⟨"FullMana", .exactly 0, plain (.restore .mana none)⟩,
  ⟨"FullThew", .exactly 0, plain (.restore .thew none)⟩,
  ⟨"AddLife", .exactly 1, onInteger fun n => .restore .life (some n)⟩,
  ⟨"AddMana", .exactly 1, onInteger fun n => .restore .mana (some n)⟩,
  ⟨"AddThew", .exactly 1, onInteger fun n => .restore .thew (some n)⟩]

end Cutscene.Command
