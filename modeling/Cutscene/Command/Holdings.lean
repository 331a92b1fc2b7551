import Cutscene.Command.Scenery

/-! Commands on what the player holds: goods and money, memos, saves and time limits. -/

namespace Cutscene.Command

/-- A number of goods; one where none is given. -/
def onGoods (effect : String → Int32 → Effect) : Handler where
  routine := do
    let name ← .text 0
    .perform (effect name (← .integerOr 1 1)) .proceed
  plan v := do
    let name ← v.text 0
    return .perform (effect name (← v.integerOr 1 1)) none
  follows := .read fun _ => .read fun _ => .act (.perform _ none)

def readMoney : Handler where
  routine := do
    let name ← .target 0
    .setVariable name (← .read fun v => .ok v.money) .proceed
  plan v := do
    let name ← v.target 0
    return .assign name (← .ok v.money)
  follows := .read fun name => .read fun money => .act (.assign name money)

def readGoods : Handler where
  routine := do
    let name ← .target 0
    let goods ← .text 1
    .setVariable name (← .read fun v => .ok (v.goodsCount goods)) .proceed
  plan v := do
    let name ← v.target 0
    let goods ← v.text 1
    return .assign name (← .ok (v.goodsCount goods))
  follows := .read fun name => .read fun _ => .read fun count => .act (.assign name count)

/-- Opens a trade menu, which is waited for. -/
def openTrade (trade : Trade) : Handler where
  routine := do .perform (.openTrade trade (← .textOr 0 "")) (.suspend (.activity .trade))
  plan v := do return .perform (.openTrade trade (← v.textOr 0 "")) (some (.activity .trade))
  follows := .read fun _ => .act (.perform _ (some _))

def setTimeScript : Handler where
  routine := do
    let seconds ← .integer 0
    .perform (.setTimeScript seconds (← .text 1)) .proceed
  plan v := do
    let seconds ← v.integer 0
    return .perform (.setTimeScript seconds (← v.text 1)) none
  follows := .read fun _ => .read fun _ => .act (.perform _ none)

def holdings : List Command := [
  ⟨"AddGoods", .between 1 2, onGoods .addGoods⟩,
  ⟨"DelGoods", .between 1 2, onGoods .removeGoods⟩,
  ⟨"EquipGoods", .exactly 1, onText .equip⟩,
  ⟨"AddMoney", .exactly 1, onInteger .addMoney⟩,
  ⟨"SetMoneyNum", .exactly 1, onInteger .setMoney⟩,
  ⟨"GetMoneyNum", .exactly 1, readMoney⟩,
  ⟨"GetGoodsNum", .exactly 2, readGoods⟩,
  ⟨"BuyGoods", .exactly 1, openTrade .buy⟩,
  ⟨"SellGoods", .between 0 1, openTrade .sell⟩,
  ⟨"Memo", .exactly 1, onText .addMemo⟩,
  ⟨"DelMemo", .exactly 1, onText .removeMemo⟩,
  ⟨"AddToMemo", .exactly 1, onInteger .addMemoById⟩,
  ⟨"DelFromMemo", .exactly 1, onInteger .removeMemoById⟩,
  ⟨"ClearAllSave", .exactly 0, plain .clearSaves⟩,
  ⟨"EnableSave", .exactly 0, plain (.enableSaving true)⟩,
  ⟨"DisableSave", .exactly 0, plain (.enableSaving false)⟩,
  ⟨"SaveMapTrap", .exactly 0, plain .saveTraps⟩,
  ⟨"OpenTimeLimit", .exactly 1, onInteger .openTimeLimit⟩,
  ⟨"CloseTimeLimit", .exactly 0, plain .closeTimeLimit⟩,
  ⟨"SetTimeScript", .exactly 2, setTimeScript⟩]

end Cutscene.Command
