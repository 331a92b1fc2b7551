import Cutscene.Dict
import Cutscene.Json.Number

/-! Reading a record of script integers, such as the starting variables of a run. A later field of
the same name wins. -/

namespace Cutscene.Json

namespace Cursor

/-- The failure of meeting another value where `wanted` stands. -/
def unexpected {α : Type} (c : Cursor) (wanted : String) : Except Error α :=
  let refuse (found : Found) (at_ : Cursor) : Except Error α := at_.fail (.wrongKind found wanted)
  match c.peek? with
  | some 110 => do refuse .null (← c.skip.word [117, 108, 108])
  | some 116 => do refuse (.bool true) (← c.skip.word [114, 117, 101])
  | some 102 => do refuse (.bool false) (← c.skip.word [97, 108, 115, 101])
  | some 34 => do
    let (s, c) ← c.skip.text
    refuse (.text s) c
  | some 91 => refuse .list c
  | some 123 => refuse .record c
  | some 45 => do
    let (n, c) ← c.skip.number false
    refuse n.found c
  | some b =>
    if isDigit b then do
      let (n, c) ← c.number true
      refuse n.found c
    else c.failNext .noValue
  | none => c.failNext .noValue

/-- Reads one 32-bit integer. -/
def integer (c : Cursor) : Except Error (Int32 × Cursor) := do
  let c := c.skipSpaces
  let settle (p : Number × Cursor) : Except Error (Int32 × Cursor) :=
    match p.1 with
    | .integer n =>
      if Interval.word32.contains n then .ok (Int32.ofInt n, p.2)
      else p.2.fail (.outOfRange (.integer n) "i32")
    | .fraction bits => p.2.fail (.wrongKind (.fraction bits) "i32")
  match c.peek? with
  | none => c.failNext .endInValue
  | some b =>
    if b = 45 then settle (← c.skip.number false)
    else if isDigit b then settle (← c.number true)
    else c.unexpected "i32"

/-- Moves to the next field's name, or to the closing brace. -/
def nextField (c : Cursor) (first : Bool) : Except Error (Bool × Cursor) :=
  match c.peek? with
  | none => c.failNext .endInRecord
  | some 125 => .ok (false, c)
  | some b =>
    if b = 44 && !first then
      let c := c.skip.skipSpaces
      match c.peek? with
      | some 34 => .ok (true, c)
      | some 125 => c.failNext .trailingComma
      | some _ => c.failNext .keyNotText
      | none => c.failNext .endInValue
    else if !first then c.failNext .noCommaOrBrace
    else if b = 34 then .ok (true, c)
    else c.failNext .keyNotText

def colon (c : Cursor) : Except Error Cursor :=
  let c := c.skipSpaces
  match c.peek? with
  | some 58 => .ok c.skip
  | some _ => c.failNext .noColon
  | none => c.failNext .endInRecord

/-- Reads fields up to the closing brace; the fuel bounds their number. -/
def fields : Nat → Cursor → Bool → Dict String Int32 → Except Error (Dict String Int32 × Cursor)
  | 0, c, _, _ => c.fail .endInRecord
  | fuel + 1, c, first, done => do
    let (more, c) ← c.skipSpaces.nextField first
    if more then
      let (name, c) ← c.skip.text
      let c ← c.colon
      let (value, c) ← c.integer
      fields fuel c false (done.insert name value)
    else .ok (done, c.skip)

end Cursor

/-- Reads a whole text as one record of integers. -/
def readIntegers (source : String) : Except Error (Dict String Int32) := do
  let c := (Cursor.start source).skipSpaces
  match c.peek? with
  | none => c.failNext .endInValue
  | some 123 =>
    let (entries, c) ← c.skip.fields (c.rest.length + 1) true []
    let c := c.skipSpaces
    if c.rest.isEmpty then .ok entries else c.failNext .trailing
  | some _ => c.unexpected "a map"

end Cutscene.Json
