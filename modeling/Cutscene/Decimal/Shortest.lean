import Cutscene.Decimal

/-! The shortest decimal that reads back as a given binary fraction. A positive fraction is
`significand · 2 ^ exponent`; the reals that round to it form an interval, and the answer is the
point of the coarsest decimal grid that meets it, the one nearer to the fraction where two do. -/

namespace Cutscene.Decimal

/-- A positive number `significand · 2 ^ exponent`, as a 64-bit word holds it. `lowest` says that
the number below it is half as far away as the number above. -/
structure Binary where
  significand : Nat
  exponent : Int
  lowest : Bool

/-- A decimal number `digits · 10 ^ exponent`. -/
structure Scientific where
  digits : Nat
  exponent : Int

def scale (base : Nat) (e : Int) (n : Nat) : Nat := n * Nat.pow base e.toNat

/-- The point of the grid `10 ^ e` that rounds to `b`, nearest to it; of two equally near the even
one. All numbers are counted in quarters of `b`'s last place, over one denominator. -/
def Binary.onGrid? (b : Binary) (e : Int) : Option Scientific :=
  let unit := scale 10 (-e) (scale 2 (b.exponent - 2) 1)
  let grid := scale 10 e (scale 2 (2 - b.exponent) 1)
  let value := 4 * b.significand * unit
  let low := (4 * b.significand - if b.lowest then 1 else 2) * unit
  let high := (4 * b.significand + 2) * unit
  let inside (n : Nat) : Bool :=
    if b.significand % 2 == 0 then low ≤ n * grid && n * grid ≤ high
    else low < n * grid && n * grid < high
  let below := value / grid
  let gap := 2 * (value % grid)
  let pick :=
    if !inside below then below + 1
    else if !inside (below + 1) then below
    else if gap < grid then below
    else if gap > grid then below + 1
    else if below % 2 == 0 then below else below + 1
  if inside pick && pick != 0 then some ⟨pick, e⟩ else none

/-- Tries the grids from `10 ^ (n - 346)` down. -/
def Binary.shortestBelow (b : Binary) : Nat → Scientific
  | 0 => ⟨0, 0⟩
  | n + 1 => match b.onGrid? (Int.ofNat n - 345) with
    | some s => s
    | none => b.shortestBelow n

def Binary.shortest (b : Binary) : Scientific := b.shortestBelow 656

/-- Positional from `10 ^ -5` up to `10 ^ 16`, with a point in every case; outside scientific, with
the sign of the power written out. -/
def Scientific.text (s : Scientific) : List Char :=
  let ds := Decimal.digits s.digits
  let point := Int.ofNat ds.length + s.exponent
  if 0 ≤ s.exponent && point ≤ 16 then ds ++ List.replicate s.exponent.toNat '0' ++ ['.', '0']
  else if 0 < point && point ≤ 16 then ds.take point.toNat ++ '.' :: ds.drop point.toNat
  else if -5 < point && point ≤ 0 then
    ['0', '.'] ++ List.replicate (-point).toNat '0' ++ ds
  else
    let power := 'e' :: (if 0 < point then ['+'] else []) ++ Decimal.ofInt (point - 1)
    match ds with
    | [d] => d :: power
    | d :: rest => d :: '.' :: rest ++ power
    | [] => []

/-- The weight of a significand's leading bit, which is not written. -/
def leading : Nat := 0x10000000000000

/-- The text of a finite 64-bit binary number given by its bits. -/
def ofBits (bits : Nat) : List Char :=
  let sign := if 0x8000000000000000 ≤ bits then ['-'] else []
  let power := bits / leading % 0x800
  let fraction := bits % leading
  let body :=
    if power == 0 then
      if fraction == 0 then ['0', '.', '0']
      else (Binary.shortest ⟨fraction, -1074, false⟩).text
    else
      (Binary.shortest ⟨fraction + leading, Int.ofNat power - 1075,
        fraction == 0 && power != 1⟩).text
  sign ++ body

end Cutscene.Decimal
