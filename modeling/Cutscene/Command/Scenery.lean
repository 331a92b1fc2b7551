import Cutscene.Command

/-! Commands on what surrounds the characters: the map and its objects, the camera, light, weather
and sound. -/

namespace Cutscene.Command

/-- An effect that takes no parameter and is not waited for. -/
def plain (effect : Effect) : Handler where
  routine := .perform effect .proceed
  plan _ := return .perform effect none
  follows := .act (.perform effect none)

/-- An effect that takes no parameter and is waited for. -/
def awaited (effect : Effect) (activity : Activity) : Handler where
  routine := .perform effect (.suspend (.activity activity))
  plan _ := return .perform effect (some (.activity activity))
  follows := .act (.perform effect (some (.activity activity)))

/-- An effect on one text. -/
def onText (effect : String → Effect) : Handler where
  routine := do .perform (effect (← .text 0)) .proceed
  plan v := do return .perform (effect (← v.text 0)) none
  follows := .read fun _ => .act (.perform _ none)

/-- An effect on one integer. -/
def onInteger (effect : Int32 → Effect) : Handler where
  routine := do .perform (effect (← .integer 0)) .proceed
  plan v := do return .perform (effect (← v.integer 0)) none
  follows := .read fun _ => .act (.perform _ none)

/-- An effect on one text, which may be left out. -/
def onOptionalText (effect : String → Effect) : Handler where
  routine := do .perform (effect (← .textOr 0 "")) .proceed
  plan v := do return .perform (effect (← v.textOr 0 "")) none
  follows := .read fun _ => .act (.perform _ none)

/-- Puts something from a file on a tile. The direction may be left out. -/
def place (effect : String → Int32 → Int32 → Int32 → Effect) : Handler where
  routine := do
    let file ← .text 0
    let x ← .integer 1
    let y ← .integer 2
    .perform (effect file x y (← .integerOr 3 0)) .proceed
  plan v := do
    let file ← v.text 0
    let x ← v.integer 1
    let y ← v.integer 2
    return .perform (effect file x y (← v.integerOr 3 0)) none
  follows := .read fun _ => .read fun _ => .read fun _ => .read fun _ => .act (.perform _ none)

/-- Removes the object that the script belongs to. -/
def deleteOwner : Handler where
  routine := do
    match ← .read fun v => .ok v.owner with
    | some ⟨.object, id⟩ => .perform (.deleteObject id) .proceed
    | _ => .fail { cause := .ownerNotObject }
  plan v := do
    match ← .ok v.owner with
    | some ⟨.object, id⟩ => .ok (.perform (.deleteObject id) none)
    | _ => View.fail .ownerNotObject
  follows := .read fun owner => by
    split
    · exact .act (.perform _ none)
    · exact .fail _

def setObjectScript : Handler where
  routine := do
    let name ← .text 0
    .perform (.setObjectScript name (← .text 1)) .proceed
  plan v := do
    let name ← v.text 0
    return .perform (.setObjectScript name (← v.text 1)) none
  follows := .read fun _ => .read fun _ => .act (.perform _ none)

/-- Two parameters speak of the current map. -/
def setTrap : Handler where
  routine := do
    let three ← .gives 3
    let map ← if three then .text 0 else .read fun v => .ok v.map
    let index ← .integer (if three then 1 else 0)
    .perform (.setTrap map index (← .text (if three then 2 else 1))) .proceed
  plan v := do
    let three ← .ok (v.gives 3)
    let map ← if three then v.text 0 else .ok v.map
    let index ← v.integer (if three then 1 else 0)
    return .perform (.setTrap map index (← v.text (if three then 2 else 1))) none
  follows := .read fun three => by
    cases three <;>
      exact .read fun _ => .read fun _ => .read fun _ => .act (.perform _ none)

/-- A camera move, which is waited for. -/
def pan (effect : Int32 → Int32 → Int32 → Effect) : Handler where
  routine := do
    let a ← .integer 0
    let b ← .integer 1
    .perform (effect a b (← .integer 2)) (.suspend (.activity .camera))
  plan v := do
    let a ← v.integer 0
    let b ← v.integer 1
    return .perform (effect a b (← v.integer 2)) (some (.activity .camera))
  follows := .read fun _ => .read fun _ => .read fun _ => .act (.perform _ (some _))

/-- A part of a colour, brought into its range. -/
def shade (n : Int32) : Int32 := max 0 (min n 255)

def tint (effect : Int32 → Int32 → Int32 → Effect) : Handler where
  routine := do
    let red ← .integer 0
    let green ← .integer 1
    let blue ← .integer 2
    .perform (effect (shade red) (shade green) (shade blue)) .proceed
  plan v := do
    let red ← v.integer 0
    let green ← v.integer 1
    let blue ← v.integer 2
    return .perform (effect (shade red) (shade green) (shade blue)) none
  follows := .read fun _ => .read fun _ => .read fun _ => .act (.perform _ none)

/-- The place of a sound: none with the file alone, two coordinates behind the file. -/
def soundPlace (v : View) : Except Fault (Option (Int32 × Int32)) :=
  match v.call.parameters.length with
  | 3 => do
    let x ← v.integer 1
    return some (x, ← v.integer 2)
  | 1 => .ok none
  | n => View.fail (.soundParameterCount n)

def playSound : Handler where
  routine := do
    let file ← .text 0
    .perform (.playSound file (← .read soundPlace)) .proceed
  plan v := do
    let file ← v.text 0
    return .perform (.playSound file (← soundPlace v)) none
  follows := .read fun _ => .read fun _ => .act (.perform _ none)

def scenery : List Command := [
  ⟨"LoadMap", .exactly 1, onText .loadMap⟩,
  ⟨"LoadObj", .exactly 1, onText .loadObjects⟩,
  ⟨"AddObj", .between 3 4, place .addObject⟩,
  ⟨"DelObj", .exactly 1, onText .deleteObject⟩,
  ⟨"DelCurObj", .exactly 0, deleteOwner⟩,
  ⟨"SetObjScript", .exactly 2, setObjectScript⟩,
  ⟨"SetMapTrap", .between 2 3, setTrap⟩,
  ⟨"MoveScreen", .exactly 3, pan .panScreen⟩,
  ⟨"MoveScreenEx", .exactly 3, pan .panScreenTo⟩,
  ⟨"FadeIn", .exactly 0, awaited .fadeIn .fadeIn⟩,
  ⟨"FadeOut", .exactly 0, awaited .fadeOut .fadeOut⟩,
  ⟨"ChangeMapColor", .exactly 3, tint .tintMap⟩,
  ⟨"ChangeAsfColor", .exactly 3, tint .tintSprites⟩,
  ⟨"BeginRain", .between 0 1, onOptionalText .beginRain⟩,
  ⟨"EndRain", .exactly 0, plain .endRain⟩,
  ⟨"ShowSnow", .exactly 1, onInteger fun n => .setSnow (n != 0)⟩,
  ⟨"PlayMusic", .exactly 1, onText .playMusic⟩,
  ⟨"StopMusic", .exactly 0, plain .stopMusic⟩,
  ⟨"PlaySound", .between 1 3, playSound⟩]

end Cutscene.Command
