import Cutscene.Decimal
import Cutscene.Text.Blank

/-! Variable references. A reference is a dollar sign and a name; in a text every reference stands
for the decimal value of its variable. -/

namespace Cutscene.Variable

def isStart (c : Char) : Bool := c.isAlpha || c = '_'

def isPart (c : Char) : Bool := c.isAlphanum || c = '_'

def isName : List Char → Bool
  | [] => false
  | c :: s => isStart c && s.all isPart

/-- The name in a text that is one reference and nothing else. -/
def nameChars? (raw : List Char) : Option (List Char) :=
  match Text.trim raw with
  | '$' :: name => if isName name then some name else none
  | _ => none

def name? (raw : String) : Option String := (nameChars? raw.toList).map String.ofList

/-- Splits a reference off the front: the name after a dollar sign, as long as it goes. -/
def reference? : List Char → Option (List Char × List Char)
  | '$' :: c :: s =>
    if isStart c then some (c :: s.takeWhile isPart, s.dropWhile isPart) else none
  | _ => none

theorem reference?_length {s name rest : List Char} (h : reference? s = some (name, rest)) :
    rest.length < s.length := by
  unfold reference? at h
  split at h
  · next c s =>
    split at h
    · simp only [Option.some.injEq, Prod.mk.injEq] at h
      rw [← h.2]
      have := (List.dropWhile_sublist isPart (l := s)).length_le
      simp only [List.length_cons]
      omega
    · simp at h
  · simp at h

def substituteChars (value : String → Int32) : List Char → List Char
  | [] => []
  | c :: s => match _h : reference? (c :: s) with
    | some (name, rest) =>
      Decimal.ofInt (value (String.ofList name)).toInt ++ substituteChars value rest
    | none => c :: substituteChars value s
termination_by s => s.length
decreasing_by
  · exact reference?_length _h
  · simp

def substitute (value : String → Int32) : String → String := Text.onChars (substituteChars value)

/-- The integer that a parameter stands for. One plus sign in front is allowed for itself. -/
def integer? (value : String → Int32) (raw : String) : Option Int32 :=
  Decimal.word? (Text.dropFront '+' (Text.trim (substituteChars value raw.toList)))

end Cutscene.Variable
