/-! Closed intervals of integers. The ones named here are those that words of a fixed width hold. -/

namespace Cutscene

structure Interval where
  low : Int
  high : Int
  deriving DecidableEq, Repr

namespace Interval

def contains (i : Interval) (n : Int) : Bool := i.low ≤ n && n ≤ i.high

/-- Signed words of 32 bits, which is what a script integer is. -/
def word32 : Interval := ⟨-2147483648, 2147483647⟩

/-- Signed words of 64 bits. -/
def word64 : Interval := ⟨-9223372036854775808, 9223372036854775807⟩

/-- Unsigned words of 32 bits. -/
def count32 : Interval := ⟨0, 4294967295⟩

theorem contains_iff (i : Interval) (n : Int) :
    i.contains n = true ↔ i.low ≤ n ∧ n ≤ i.high := by
  simp [contains]

end Interval

end Cutscene
