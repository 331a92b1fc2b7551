import Cutscene.Script
import Cutscene.Script.Arguments

/-! One line of script text: a label marker, which starts with `@`, or the call of a command. -/

namespace Cutscene.Script

/-- Characters of a label name. -/
def isLabelChar (c : Char) : Bool := c ≠ ':' && c ≠ ';' && !Text.isBlank c

def startsComment (s : List Char) : Bool := s.head? = some ';' || ['/', '/'].isPrefixOf s

def hasComment : List Char → Bool
  | [] => false
  | c :: s => startsComment (c :: s) || hasComment s

/-- Whether a colon may follow, and then nothing but a comment. -/
def endsLabel (s : List Char) : Bool :=
  let rest := Text.trimStart (Text.dropFront ':' (Text.trimStart s))
  rest.isEmpty || startsComment rest

/-- Whether the text after the `@` is a name with nothing but a comment behind it. A comment may
also follow the name at once. -/
def isLabel (s : List Char) : Bool :=
  let name := s.takeWhile isLabelChar
  !name.isEmpty && (endsLabel (s.dropWhile isLabelChar) || hasComment name.tail)

/-- The marker as far as its comment, with the colon if it is written next to the name. -/
def labelLiteral (line : List Char) : List Char :=
  Text.beforeComment (line.takeWhile fun c => c ≠ ';' && !Text.isBlank c)

def isNameStart (c : Char) : Bool := c.isAlpha || c = '_'

def isNameChar (c : Char) : Bool := c.isAlphanum || c = '_'

/-- The text behind a parameter list, without its comment and closing semicolon. -/
def resultOf (s : List Char) : List Char :=
  Text.trim (Text.dropBack ';' (Text.trim (Text.beforeComment s)))

/-- The parameters and what follows them, given the text behind a command's name. -/
def parametersOf (s : List Char) : Except Cause (List String × List Char) :=
  match Text.trimStart s with
  | '(' :: s => do
    let (inside, rest) ← splitClosing {} s
    return (← arguments inside, rest)
  | s => .ok ([], s)

/-- Reads a trimmed line that is neither empty nor a comment. -/
def readLine (line : List Char) (number : Nat) : Except Cause Instruction :=
  match line with
  | '@' :: s =>
    if isLabel s then .ok (.ofLabel (String.ofList (labelLiteral line)) number)
    else .error (.labelMalformed (String.ofList line))
  | _ =>
    if (line.head?.map isNameStart).getD false then do
      let (parameters, rest) ← parametersOf (line.dropWhile isNameChar)
      return .call {
        name := String.ofList (line.takeWhile isNameChar)
        parameters
        result := String.ofList (resultOf rest)
        literal := String.ofList line
        line := number }
    else .error (.lineMalformed (String.ofList line))

end Cutscene.Script
