import Cutscene.Interval

/-! Integers as script text: an optional sign followed by ASCII digits when read, the plain decimal
form when written. -/

namespace Cutscene.Decimal

def digits (n : Nat) : List Char := Nat.toDigits 10 n

def ofInt : Int → List Char
  | .ofNat n => digits n
  | .negSucc n => '-' :: digits (n + 1)

def text (n : Int) : String := String.ofList (ofInt n)

/-- The number that a text of ASCII digits denotes; there is at least one. -/
def natural? (s : List Char) : Option Nat :=
  if s.isEmpty || !s.all Char.isDigit then none
  else some (s.foldl (fun n c => n * 10 + (c.toNat - '0'.toNat)) 0)

/-- Reads at most one sign and then digits. -/
def integer? : List Char → Option Int
  | '+' :: s => (natural? s).map Int.ofNat
  | '-' :: s => (natural? s).map fun n => -Int.ofNat n
  | s => (natural? s).map Int.ofNat

/-- Reads a script integer: a number outside 32 bits is none. -/
def word? (s : List Char) : Option Int32 :=
  match integer? s with
  | some n => if Interval.word32.contains n then some (Int32.ofInt n) else none
  | none => none

end Cutscene.Decimal

namespace Int32

/-- The decimal form of a script integer. -/
def text (n : Int32) : String := Cutscene.Decimal.text n.toInt

end Int32
