import Cutscene.Fault
import Cutscene.Variable

/-! Conditions. A condition compares two operands at the leftmost operator, the longer one where
two begin, or it is one operand that has to differ from zero. -/

namespace Cutscene

inductive Comparison where
  | equal
  | notEqual
  | greaterOrEqual
  | lessOrEqual
  | greater
  | less
  deriving DecidableEq, Repr

namespace Comparison

def ofToken? : List Char → Option Comparison
  | ['=', '='] => some .equal
  | ['!', '='] => some .notEqual
  | ['<', '>'] => some .notEqual
  | ['>', '='] => some .greaterOrEqual
  | ['<', '='] => some .lessOrEqual
  | ['>', '>'] => some .greater
  | ['>'] => some .greater
  | ['<', '<'] => some .less
  | ['<'] => some .less
  | _ => none

def holds (c : Comparison) (left right : Int32) : Bool :=
  match c with
  | .equal => left == right
  | .notEqual => left != right
  | .greaterOrEqual => decide (right ≤ left)
  | .lessOrEqual => decide (left ≤ right)
  | .greater => decide (right < left)
  | .less => decide (left < right)

end Comparison

namespace Condition

/-- The operators as they are written, a longer one before the shorter one that it begins with. -/
def tokens : List (List Char) :=
  [['=', '='], ['!', '='], ['<', '>'], ['>', '='], ['<', '='], ['>', '>'], ['<', '<'], ['>'], ['<']]

/-- The operator that a text begins with, and what follows it. -/
def tokenAt? (s : List Char) : Option (List Char × List Char) :=
  (tokens.find? (·.isPrefixOf s)).map fun token => (token, s.drop token.length)

/-- Splits at the leftmost operator. -/
def split? : List Char → Option (List Char × List Char × List Char)
  | [] => none
  | c :: s => match tokenAt? (c :: s) with
    | some (token, right) => some ([], token, right)
    | none => (split? s).map fun (left, token, right) => (c :: left, token, right)

/-- A variable's value, an integer, or zero for any other text. -/
def operand (value : String → Int32) (raw : List Char) : Int32 :=
  match Variable.nameChars? raw with
  | some name => value (String.ofList name)
  | none => (Decimal.word? (Text.trim raw)).getD 0

def evaluateChars (value : String → Int32) (raw : List Char) : Except Cause Bool :=
  let s := Text.trim raw
  if s.isEmpty then .error .conditionEmpty
  else match if s.contains '\n' then none else split? s with
    | none => .ok (operand value s != 0)
    | some (left, token, right) =>
      if (Text.trim left).isEmpty || (Text.trim right).isEmpty then
        .error (.operandMissing (String.ofList s))
      else match Comparison.ofToken? token with
        | some op => .ok (op.holds (operand value left) (operand value right))
        | none => .error (.operatorUnknown (String.ofList token))

def evaluate (value : String → Int32) (raw : String) : Except Cause Bool :=
  evaluateChars value raw.toList

end Condition

end Cutscene
