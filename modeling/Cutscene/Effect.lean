import Cutscene.Decimal

/-! Effects on the game world. A command asks for at most one effect; its line is the readable form
in which a recording keeps it. -/

namespace Cutscene

structure TalkLine where
  text : String
  portrait : Int32
  deriving DecidableEq, Repr

inductive Gait where
  | npcWalk
  | npcWalkDirection
  | playerWalk
  | playerWalkDirection
  | playerRun
  | playerJump
  deriving DecidableEq, Repr

inductive Target where
  | tile (x y : Int32)
  | direction (direction steps : Int32)
  deriving DecidableEq, Repr

/-- The actor's name is empty for the player. -/
structure Movement where
  gait : Gait
  actor : String
  target : Target
  deriving DecidableEq, Repr

inductive Trade where
  | buy
  | sell
  deriving DecidableEq, Repr

inductive Stat where
  | life
  | mana
  | thew
  deriving DecidableEq, Repr

inductive Effect where
  | dialog (text : String) (portrait : Int32)
  | message (text : String)
  | selection (text first second : String)
  | menu (columns : Int32) (text : String) (options : List String)
  | loadMap (map : String)
  | loadNpcs (file : String)
  | addNpc (file : String) (x y direction : Int32)
  | deleteNpc (name : String)
  | loadObjects (file : String)
  | addObject (file : String) (x y direction : Int32)
  | deleteObject (name : String)
  | setObjectScript (name script : String)
  | placeNpc (name : String) (x y : Int32)
  | placePlayer (x y : Int32)
  | setTrap (map : String) (index : Int32) (script : String)
  | move (movement : Movement)
  | turnNpc (name : String) (direction : Int32)
  | turnPlayer (direction : Int32)
  | setNpcState (name : String) (state : Int32)
  | setPlayerState (state : Int32)
  | setNpcLevel (name : String) (level : Int32)
  | setPlayerLevel (level : Int32)
  | setNpcRelation (name : String) (relation : Int32)
  | setNpcScript (name script : String)
  | showNpc (name : String) (visible : Bool)
  | act (actor animation : String)
  | enableNpcs (enabled : Bool)
  | addExperience (amount : Int32)
  /-- To the full without an amount. -/
  | restore (stat : Stat) (amount : Option Int32)
  | panScreen (direction distance speed : Int32)
  | panScreenTo (x y speed : Int32)
  | addGoods (name : String) (count : Int32)
  | removeGoods (name : String) (count : Int32)
  | equip (name : String)
  | addMoney (amount : Int32)
  | setMoney (amount : Int32)
  | openTrade (trade : Trade) (list : String)
  | playMusic (file : String)
  | stopMusic
  | playSound (file : String) (place : Option (Int32 × Int32))
  | fadeIn
  | fadeOut
  | tintMap (red green blue : Int32)
  | tintSprites (red green blue : Int32)
  | beginRain (file : String)
  | endRain
  | setSnow (enabled : Bool)
  | saveTraps
  | clearSaves
  | enableSaving (enabled : Bool)
  | openTimeLimit (seconds : Int32)
  | closeTimeLimit
  | setTimeScript (seconds : Int32) (script : String)
  | addMemo (text : String)
  | removeMemo (text : String)
  | addMemoById (id : Int32)
  | removeMemoById (id : Int32)
  deriving DecidableEq, Repr

def Gait.text : Gait → String
  | .npcWalk => "NpcGoto"
  | .npcWalkDirection => "NpcGotoDir"
  | .playerWalk => "PlayerGoto"
  | .playerWalkDirection => "PlayerGotoDir"
  | .playerRun => "PlayerRunTo"
  | .playerJump => "PlayerJumpTo"

def Target.text : Target → String
  | .tile x y => x.text ++ " " ++ y.text
  | .direction d n => "dir " ++ d.text ++ " x" ++ n.text

def Trade.text : Trade → String
  | .buy => "Buy"
  | .sell => "Sell"

def Stat.text : Stat → String
  | .life => "Life"
  | .mana => "Mana"
  | .thew => "Thew"

/-- The name an actor goes by; the player has none of its own. -/
def actorKey (actor : String) : String := if actor = "" then "player" else actor

namespace Effect

/-- A word followed by its operands, one blank between them. -/
def words (parts : List String) : String := " ".intercalate parts

def flag (b : Bool) : String := if b then "true" else "false"

def line : Effect → String
  | .dialog text portrait => words ["dialog", portrait.text, text]
  | .message text => words ["message", text]
  | .selection text first second =>
    words ["selection", text, "[" ++ first ++ "|" ++ second ++ "]"]
  | .menu columns text options =>
    words ["multi_selection", columns.text, text, "[" ++ "|".intercalate options ++ "]"]
  | .loadMap map => words ["load_map", map]
  | .loadNpcs file => words ["load_npc", file]
  | .addNpc file x y d => words ["add_npc", file, x.text, y.text, d.text]
  | .deleteNpc name => words ["delete_npc", name]
  | .loadObjects file => words ["load_obj", file]
  | .addObject file x y d => words ["add_obj", file, x.text, y.text, d.text]
  | .deleteObject name => words ["delete_obj", name]
  | .setObjectScript name script => words ["obj_script", name, script]
  | .placeNpc name x y => words ["npc_pos", name, x.text, y.text]
  | .placePlayer x y => words ["player_pos", x.text, y.text]
  | .setTrap map index script => words ["map_trap", map, index.text, script]
  | .move m => words ["move", m.gait.text, actorKey m.actor, m.target.text]
  | .turnNpc name d => words ["npc_dir", name, d.text]
  | .turnPlayer d => words ["player_dir", d.text]
  | .setNpcState name state => words ["npc_state", name, state.text]
  | .setPlayerState state => words ["player_state", state.text]
  | .setNpcLevel name level => words ["npc_level", name, level.text]
  | .setPlayerLevel level => words ["player_level", level.text]
  | .setNpcRelation name relation => words ["npc_relation", name, relation.text]
  | .setNpcScript name script => words ["npc_script", name, script]
  | .showNpc name visible => words ["npc_visible", name, flag visible]
  | .act actor animation => words ["special_action", actorKey actor, animation]
  | .enableNpcs enabled => words ["npc_ai", flag enabled]
  | .addExperience amount => words ["add_exp", amount.text]
  | .restore stat none => words ["restore", stat.text, "full"]
  | .restore stat (some amount) => words ["restore", stat.text, amount.text]
  | .panScreen d distance speed => words ["move_screen", d.text, distance.text, speed.text]
  | .panScreenTo x y speed => words ["move_screen_to", x.text, y.text, speed.text]
  | .addGoods name count => words ["add_goods", name, count.text]
  | .removeGoods name count => words ["remove_goods", name, count.text]
  | .equip name => words ["equip", name]
  | .addMoney amount => words ["add_money", amount.text]
  | .setMoney amount => words ["set_money", amount.text]
  | .openTrade trade list => words ["trade", trade.text, list]
  | .playMusic file => words ["play_music", file]
  | .stopMusic => "stop_music"
  | .playSound file none => words ["play_sound", file]
  | .playSound file (some (x, y)) => words ["play_sound", file, "at", x.text, y.text]
  | .fadeIn => "fade_in"
  | .fadeOut => "fade_out"
  | .tintMap r g b => words ["map_tint", r.text, g.text, b.text]
  | .tintSprites r g b => words ["sprite_tint", r.text, g.text, b.text]
  | .beginRain file => words ["begin_rain", file]
  | .endRain => "end_rain"
  | .setSnow enabled => words ["snow", flag enabled]
  | .saveTraps => "save_map_traps"
  | .clearSaves => "clear_all_saves"
  | .enableSaving enabled => words ["save_enabled", flag enabled]
  | .openTimeLimit seconds => words ["open_time_limit", seconds.text]
  | .closeTimeLimit => "close_time_limit"
  | .setTimeScript seconds script => words ["time_script", seconds.text, script]
  | .addMemo text => words ["add_memo", text]
  | .removeMemo text => words ["remove_memo", text]
  | .addMemoById id => words ["add_memo_id", id.text]
  | .removeMemoById id => words ["remove_memo_id", id.text]

end Effect

end Cutscene
