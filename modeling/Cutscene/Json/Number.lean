import Cutscene.Json.Cursor

/-! Numbers in a JSON text. Digits beyond the 64-bit range turn a number into a fraction, whose
value is its leading digits times or over one power of ten. -/

namespace Cutscene.Json

inductive Number where
  | integer (n : Int)
  | fraction (bits : Nat)

def Number.found : Number → Found
  | .integer n => .integer n
  | .fraction bits => .fraction bits

/-- Takes digits as long as the number stays within `limit`, and counts the others. -/
def gather (limit : Nat) : Nat → List Nat → Nat × Nat
  | n, [] => (n, 0)
  | n, d :: ds => if n * 10 + d > limit then (n, ds.length + 1) else gather limit (n * 10 + d) ds

def largestWord : Nat := UInt64.size - 1

/-- `f` times `10 ^ e`, scaled by at most 308 places at a time; none when it is out of range. -/
def scaled? : Nat → Float → Int → Option Float
  | 0, f, _ => some f
  | fuel + 1, f, e =>
    if e.natAbs ≤ 308 then
      let power := Float.ofScientific 1 false e.natAbs
      let g := if 0 ≤ e then f * power else f / power
      if g.isInf then none else some g
    else if f == 0.0 then some f
    else if 0 ≤ e then none
    else scaled? fuel (f / Float.ofScientific 1 false 308) (e + 308)

namespace Cursor

/-- The fraction `significand · 10 ^ e`. -/
def fraction (c : Cursor) (positive : Bool) (significand : Nat) (e : Int) :
    Except Error (Number × Cursor) :=
  match scaled? 4 (Float.ofNat significand) e with
  | none => c.fail .numberTooLarge
  | some f => .ok (.fraction (if positive then f else -f).toBits.toNat, c)

/-- Walks through the digits of a power of ten up to the one that leaves 32 bits, if any does. -/
def tooLong : Cursor → Nat → List Nat → Option Cursor
  | _, _, [] => none
  | c, n, d :: ds =>
    if n * 10 + d > 2147483647 then some c.skip else tooLong c.skip (n * 10 + d) ds

/-- Reads a power of ten whose letter is passed. -/
def power (c : Cursor) (positive : Bool) (significand : Nat) (e : Int) :
    Except Error (Number × Cursor) :=
  let (up, c) := match c.peek? with
    | some 43 => (true, c.skip)
    | some 45 => (false, c.skip)
    | _ => (true, c)
  match c.next? with
  | none => c.fail .endInValue
  | some (b, after) =>
    if !isDigit b then after.fail .badNumber
    else
      let (ds, rest) := c.digits
      match tooLong c 0 ds with
      | some place =>
        if significand != 0 && up then place.fail .numberTooLarge
        else .ok (.fraction (if positive then (0.0 : Float) else -0.0).toBits.toNat, rest)
      | none =>
        let n := Int.ofNat (ds.foldl (fun n d => n * 10 + d) 0)
        rest.fraction positive significand (if up then e + n else e - n)

def isPowerMark (b : Option UInt8) : Bool := b == some 101 || b == some 69

/-- Reads the places after a point that is passed. -/
def places (c : Cursor) (positive : Bool) (significand : Nat) (e : Int) :
    Except Error (Number × Cursor) :=
  let (ds, rest) := c.digits
  if ds.isEmpty then
    match c.peek? with
    | some _ => c.failNext .badNumber
    | none => c.failNext .endInValue
  else
    let (n, dropped) := gather largestWord significand ds
    let e := e - Int.ofNat (ds.length - dropped)
    if isPowerMark rest.peek? then rest.skip.power positive n e
    else rest.fraction positive n e

/-- Reads a number whose sign, if any, is passed. -/
def number (c : Cursor) (positive : Bool) : Except Error (Number × Cursor) :=
  match c.next? with
  | none => c.fail .endInValue
  | some (b, after) =>
    if !isDigit b then after.fail .badNumber
    else if b = 48 && (after.peek?.map isDigit).getD false then after.failNext .badNumber
    else
      let (ds, rest) := c.digits
      let (n, dropped) := gather largestWord 0 ds
      if rest.peek? == some 46 then rest.skip.places positive n (Int.ofNat dropped)
      else if isPowerMark rest.peek? then rest.skip.power positive n (Int.ofNat dropped)
      else if 0 < dropped then rest.fraction positive n (Int.ofNat dropped)
      else if positive then .ok (.integer (Int.ofNat n), rest)
      else if n == 0 || n > 9223372036854775808 then rest.fraction false n 0
      else .ok (.integer (-Int.ofNat n), rest)

end Cursor

end Cutscene.Json
