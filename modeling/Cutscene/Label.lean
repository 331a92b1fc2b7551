import Cutscene.Text.Blank
import Cutscene.Text.Case

/-! Label names. Markers, jumps and visit counts all speak of a label by one form, `@name:` in
small letters, whichever way it is spelt. -/

namespace Cutscene.Label

def normalizeChars (raw : List Char) : List Char :=
  let name := Text.trim (Text.dropBack ':' (Text.dropFront '@' (Text.trim raw)))
  '@' :: Text.lower name ++ [':']

def normalize : String → String := Text.onChars normalizeChars

end Cutscene.Label
