/-! Why a file operation fails, with the system's wording and number. -/

namespace Cutscene.Disk

inductive Error where
  | missing
  | exists
  | notDirectory
  | isDirectory
  | nameTooLong
  /-- A path with the character that ends a name for the system. -/
  | nulInPath
  | notText
  deriving DecidableEq, Repr

def Error.message : Error → String
  | .missing => "No such file or directory (os error 2)"
  | .exists => "File exists (os error 17)"
  | .notDirectory => "Not a directory (os error 20)"
  | .isDirectory => "Is a directory (os error 21)"
  | .nameTooLong => "File name too long (os error 36)"
  | .nulInPath => "file name contained an unexpected NUL byte"
  | .notText => "stream did not contain valid UTF-8"

end Cutscene.Disk
