import Cutscene.Command

/-! Commands that speak to the player or ask for a choice. -/

namespace Cutscene.Command

def say : Handler where
  routine := do
    let text ← .text 0
    .perform (.dialog text (← .integerOr 1 0)) (.suspend .dialog)
  plan v := do
    let text ← v.text 0
    return .perform (.dialog text (← v.integerOr 1 0)) (some .dialog)
  follows := .read fun _ => .read fun _ => .act (.perform _ (some .dialog))

/-- A single number shows that line alone. -/
def talk : Handler where
  routine := do
    let first ← .integer 0
    .showLines first (← .integerOr 1 first)
  plan v := do
    let first ← v.integer 0
    return .talk first (← v.integerOr 1 first)
  follows := .read fun first => .read fun last => .act (.talk first last)

def message : Handler where
  routine := do .perform (.message (← .text 0)) .proceed
  plan v := do return .perform (.message (← v.text 0)) none
  follows := .read fun _ => .act (.perform _ none)

def choose : Handler where
  routine := do
    let result ← .target 3
    let text ← .text 0
    let first ← .text 1
    .perform (.selection text first (← .text 2)) (.suspend (.selection result))
  plan v := do
    let result ← v.target 3
    let text ← v.text 0
    let first ← v.text 1
    return .perform (.selection text first (← v.text 2)) (some (.selection result))
  follows := .read fun _ => .read fun _ => .read fun _ => .read fun _ => .act (.perform _ (some _))

def chooseMultiple : Handler where
  routine := do
    let columns ← .integer 0
    let result ← .target 1
    let text ← .text 2
    .perform (.menu (max columns 1) text (← .read (·.textsFrom 3))) (.suspend (.selection result))
  plan v := do
    let columns ← v.integer 0
    let result ← v.target 1
    let text ← v.text 2
    return .perform (.menu (max columns 1) text (← v.textsFrom 3)) (some (.selection result))
  follows := .read fun _ => .read fun _ => .read fun _ => .read fun _ => .act (.perform _ (some _))

def speech : List Command := [
  ⟨"Say", .between 1 2, say⟩,
  ⟨"Talk", .between 1 2, talk⟩,
  ⟨"Message", .exactly 1, message⟩,
  ⟨"ShowMessage", .exactly 1, message⟩,
  ⟨"Choose", .exactly 4, choose⟩,
  ⟨"Select", .exactly 4, choose⟩,
  ⟨"ChooseMultiple", .atLeast 4, chooseMultiple⟩]

end Cutscene.Command
