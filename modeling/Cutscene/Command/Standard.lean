import Cutscene.Command.Cast
import Cutscene.Command.Control
import Cutscene.Command.Holdings
import Cutscene.Command.Scenery
import Cutscene.Command.Speech

/-! The commands that every chain knows. -/

namespace Cutscene.CommandTable

def standard : CommandTable :=
  (Command.control ++ Command.speech ++ Command.scenery ++ Command.cast ++
    Command.holdings).foldl register []

end Cutscene.CommandTable
