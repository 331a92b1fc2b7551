/-! Pseudo-random numbers. The state is a 32-bit counter with an odd step, and a number is a mix of
the counter's bits. A draw below a bound rejects the few numbers beyond the last full multiple of
the bound, so that every value is equally likely. -/

namespace Cutscene

abbrev Random := UInt32

namespace Random

def step : UInt32 := 0x6d2b79f5

def mix (n : UInt32) : UInt32 :=
  let a := (n ^^^ (n >>> 15)) * (n ||| 1)
  let b := a ^^^ (a + (a ^^^ (a >>> 7)) * (a ||| 61))
  b ^^^ (b >>> 14)

/-- The next number and the state after it. -/
def next (r : Random) : UInt32 × Random :=
  let r := r + step
  (mix r, r)

/-- The largest multiple of `bound` within the 32-bit range. -/
def threshold (bound : Nat) : Nat := UInt32.size / bound * bound

/-- The first of at most `fuel` numbers that lies below `limit`. -/
def accepted? (limit : Nat) : Nat → Random → Option (UInt32 × Random)
  | 0, _ => none
  | fuel + 1, r =>
    let (n, r) := next r
    if n.toNat < limit then some (n, r) else accepted? limit fuel r

/-- What a search comes to below `bound`. -/
def reduced (bound : Nat) (r : Random) : Option (UInt32 × Random) → Nat × Random
  | some (n, r) => (n.toNat % bound, r)
  | none => (0, r)

/-- A number below `bound`. The counter meets every state within so many steps as there are, and
one of them gives zero, so the search is not cut short. -/
def below (bound : Nat) (r : Random) : Nat × Random :=
  reduced bound r (accepted? (threshold bound) UInt32.size r)

/-- How many values lie between two ends. -/
def span (a b : Int32) : Nat := (max a.toInt b.toInt - min a.toInt b.toInt + 1).toNat

/-- A number below a span. The span of all words takes every number as it is. -/
def offset (span : Nat) (r : Random) : Nat × Random :=
  if span = UInt32.size then
    let (n, r) := next r
    (n.toNat, r)
  else below span r

/-- Counts an offset from the lower of two ends. -/
def shifted (a b : Int32) (offset : Nat × Random) : Int32 × Random :=
  (Int32.ofInt (min a.toInt b.toInt + offset.1), offset.2)

/-- A number between two ends, which may come in either order. -/
def between (a b : Int32) (r : Random) : Int32 × Random := shifted a b (offset (span a b) r)

end Random

end Cutscene
